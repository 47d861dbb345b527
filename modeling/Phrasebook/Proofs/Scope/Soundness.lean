import Phrasebook.Proofs.Grammar.KeyNotation
import Phrasebook.Scope.Store

/-! # What frames hold

The invariant of all frames of a session that has no embedding program.

* `Value.Plain` — the values that programs can make.
* `Builtin.key`, `Builtin.ofPattern_pattern` — the key that the pattern of a built-in action
  describes.
* `Builtin.arity` — the number of arguments of a built-in action, which its key has gaps for.
* `Entry.Fits` — what a key may be bound to: an action under its own pattern, a plain value under a
  name without gaps.
* `Store.Binds` — a property of all that keys are bound to.
* `Store.Sound` — every key in every frame is bound to what fits it.
* `Store.Hostless` — no key is bound to an action of the embedding program, whatever else it is
  bound to.
-/

namespace Phrasebook

/-! ## Values -/

/-- The values that programs can make and bind. Errors are not among them: they are thrown. -/
def Value.Plain : Value → Prop
  | .nothing => True
  | .string text => text.Balanced
  | .error _ | .host _ => False

theorem Value.Plain.nothing_or_string {value : Value} (h : value.Plain) :
    value = .nothing ∨ ∃ text, value = .string text := by
  cases value with
  | nothing => exact .inl rfl
  | string text => exact .inr ⟨text, rfl⟩
  | error message => exact h.elim
  | host value => exact h.elim

/-! ## Entries -/

/-- The key that the pattern of a built-in action describes. -/
def Builtin.key : Builtin → Key
  | branch =>
    ⟨[.word "if".toList, .gap, .word ",".toList, .word "then".toList, .gap]⟩
  | name => ⟨[.word "name".toList, .gap, .word "as".toList, .gap]⟩
  | print => ⟨[.word "print".toList, .gap]⟩
  | throw => ⟨[.word "throw".toList, .gap]⟩

def Builtin.arity : Builtin → Nat
  | branch | name => 2
  | print | throw => 1

section

variable [CallStack]

theorem Builtin.ofPattern_pattern (action : Builtin) :
    Key.ofPattern action.pattern = .ok action.key := by
  cases action <;> exact Key.ofPattern_eq_ok (by decide +kernel)

theorem Builtin.key_eq_of_ofPattern {action : Builtin} {key : Key}
    (h : Key.ofPattern action.pattern = .ok key) : action.key = key :=
  Except.ok.inj (action.ofPattern_pattern.symm.trans h)

theorem Builtin.arity_of_ofPattern {action : Builtin} {key : Key}
    (h : Key.ofPattern action.pattern = .ok key) : key.arity = action.arity := by
  rw [← key_eq_of_ofPattern h]
  cases action <;> rfl

end

section

variable {Act : Type}

def Entry.Fits [CallStack] (key : Key) : Entry Act → Prop
  | .stored value => key.arity = 0 ∧ value.Plain
  | .action (.builtin act) => Key.ofPattern act.pattern = .ok key
  | .action (.host _) | .foreign _ _ => False

/-! ## Frames -/

namespace Store

/-- Whatever a key is bound to in a frame has the property. -/
def Binds (P : Key → Entry Act → Prop) (store : Store Act) : Prop :=
  ∀ frame key entry, (store.bindings frame).find? key = some entry → P key entry

section

variable {P : Key → Entry Act → Prop} {store : Store Act}

theorem Binds.empty : (empty : Store Act).Binds P := by
  intro frame key entry h
  cases h

theorem Binds.add (h : store.Binds P) (outer : List FrameId) : (store.add outer).2.Binds P := by
  intro frame key entry hf
  rw [bindings_add] at hf
  exact h frame key entry hf

/-- A number without a frame has nothing bound in it, before and after. -/
theorem bindings_bind_of_le {frame : FrameId} (h : store.size ≤ frame) (key : Key)
    (entry : Entry Act) (other : FrameId) :
    (store.bind frame key entry).bindings other = store.bindings other := by
  simp only [bindings, bind, Array.getElem?_modify]
  by_cases ho : frame = other
  · subst ho
    simp [Array.getElem?_eq_none (show store.frames.size ≤ frame from h)]
  · simp [ho]

theorem Binds.bind (h : store.Binds P) (frame : FrameId) {key : Key} {entry : Entry Act}
    (he : P key entry) : (store.bind frame key entry).Binds P := by
  intro other k found hf
  by_cases hlt : frame < store.size
  · rw [bindings_bind _ _ _ _ _ hlt] at hf
    split at hf
    · rw [Bindings.find?_insert] at hf
      split at hf
      · next hk =>
        cases hf
        exact hk ▸ he
      · exact h other k found hf
    · exact h other k found hf
  · rw [bindings_bind_of_le (Nat.not_lt.1 hlt)] at hf
    exact h other k found hf

/-- What a key means in a scope has the property. -/
theorem Binds.find? (h : store.Binds P) {scope : FrameId} {key : Key} {entry : Entry Act}
    (hf : store.find? scope key = some entry) : P key entry := by
  obtain ⟨frame, -, hframe⟩ := List.exists_of_findSome?_eq_some hf
  exact h frame key entry hframe

end

/-! ## Frames that hold what fits -/

section

variable [CallStack]

/-- Every key in every frame is bound to what fits it. -/
def Sound (store : Store Act) : Prop :=
  ∀ frame key entry, (store.bindings frame).find? key = some entry → entry.Fits key

theorem Sound.empty : Sound (empty : Store Act) :=
  Binds.empty

theorem Sound.add {store : Store Act} (h : store.Sound) (outer : List FrameId) :
    (store.add outer).2.Sound :=
  Binds.add h outer

theorem Sound.child {store : Store Act} (h : store.Sound) (scope : FrameId) :
    (store.child scope).2.Sound :=
  h.add _

theorem Sound.bind {store : Store Act} (h : store.Sound) (frame : FrameId) {key : Key}
    {entry : Entry Act} (he : entry.Fits key) : (store.bind frame key entry).Sound :=
  Binds.bind h frame he

/-- What a key means in a scope fits the key. -/
theorem Sound.find? {store : Store Act} (h : store.Sound) {scope : FrameId} {key : Key}
    {entry : Entry Act} (hf : store.find? scope key = some entry) : entry.Fits key :=
  Binds.find? h hf

end

/-! ## Frames without actions of an embedding program -/

/-- No key in any frame is bound to an action of the embedding program. -/
def Hostless (store : Store Act) : Prop :=
  store.Binds fun _ entry => ∀ action, entry ≠ .action (.host action)

theorem Sound.hostless [CallStack] {store : Store Act} (h : store.Sound) : store.Hostless := by
  rintro frame key _ hf action rfl
  exact h frame key _ hf

theorem Hostless.child {store : Store Act} (h : store.Hostless) (scope : FrameId) :
    (store.child scope).2.Hostless :=
  Binds.add h _

theorem Hostless.bind {store : Store Act} (h : store.Hostless) (frame : FrameId) (key : Key)
    (value : Value) : (store.bind frame key (.stored value)).Hostless :=
  Binds.bind h frame nofun

theorem Hostless.find? {store : Store Act} (h : store.Hostless) (scope : FrameId) (key : Key)
    (action : Act) : store.find? scope key ≠ some (.action (.host action)) :=
  fun hf => Binds.find? h hf action rfl

end Store

end

end Phrasebook
