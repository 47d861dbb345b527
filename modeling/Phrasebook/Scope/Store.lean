import Phrasebook.Scope.Entry

/-! # Frames and scopes

A frame binds keys to entries. Frames are nested: a scope is a frame together with the frames
around it, and a key means what the nearest of them binds it to.

* `Bindings` — the bindings of one frame, in the order in which the keys were first bound.
* `Store` — all frames; each knows the frames around it, from the inside out.
* `Store.find?`, `Store.owner?` — the entry a key means in a scope, and the frame that binds it.
* `Store.root`, `Store.child` — new frames.
* `Store.bind`, `Store.register` — binding a key in one frame.
-/

namespace Phrasebook

/-! ## One frame -/

abbrev Bindings (Act : Type) := List (Key × Entry Act)

namespace Bindings

variable {Act : Type}

def find? (key : Key) : Bindings Act → Option (Entry Act)
  | [] => none
  | (k, entry) :: rest => if k = key then some entry else find? key rest

def insert (key : Key) (entry : Entry Act) : Bindings Act → Bindings Act
  | [] => [(key, entry)]
  | (k, old) :: rest => if k = key then (k, entry) :: rest else (k, old) :: insert key entry rest

def keys (bindings : Bindings Act) : List Key := bindings.map Prod.fst

@[simp] theorem find?_nil (key : Key) : find? key ([] : Bindings Act) = none := rfl

theorem find?_insert (key other : Key) (entry : Entry Act) (bindings : Bindings Act) :
    find? other (insert key entry bindings)
      = if key = other then some entry else find? other bindings := by
  induction bindings with
  | nil => rfl
  | cons binding rest ih =>
    obtain ⟨k, old⟩ := binding
    by_cases hk : k = key
    · subst hk
      by_cases ho : k = other <;> simp [insert, find?, ho]
    · by_cases ho : k = other
      · subst ho; simp [insert, find?, hk, Ne.symm hk]
      · simp [insert, find?, hk, ho, ih]

/-- Binding a key leaves the order of the keys as it is; a new key comes last. -/
theorem keys_insert (key : Key) (entry : Entry Act) (bindings : Bindings Act) :
    keys (insert key entry bindings)
      = if key ∈ keys bindings then keys bindings else keys bindings ++ [key] := by
  induction bindings with
  | nil => rfl
  | cons binding rest ih =>
    obtain ⟨k, old⟩ := binding
    by_cases hk : k = key
    · simp [insert, keys, hk]
    · have hk' : key ≠ k := fun h => hk h.symm
      simp only [keys] at ih
      simp only [insert, hk, if_false, keys, List.map_cons, ih, List.mem_cons, hk', false_or]
      by_cases hm : key ∈ rest.map Prod.fst <;> simp [hm]

end Bindings

/-! ## All frames -/

/-- The number of a frame. Frames are numbered in the order in which they were made. -/
abbrev FrameId := Nat

/-- A frame: its bindings, and the frames around it from the inside out. -/
structure Frame (Act : Type) where
  bindings : Bindings Act
  outer : List FrameId

structure Store (Act : Type) where
  frames : Array (Frame Act)

/-- The entry is not one that may be registered; its type is described by `kind`. -/
structure ImproperEntry where
  kind : Text
deriving DecidableEq, Repr

def ImproperEntry.message (e : ImproperEntry) : Text :=
  "Scope entries must be Action or StoredValue, not ".toList ++ e.kind

namespace Store

variable {Act : Type}

def empty : Store Act := ⟨#[]⟩

def size (store : Store Act) : Nat := store.frames.size

def bindings (store : Store Act) (frame : FrameId) : Bindings Act :=
  match store.frames[frame]? with
  | some f => f.bindings
  | none => []

def outer (store : Store Act) (frame : FrameId) : List FrameId :=
  match store.frames[frame]? with
  | some f => f.outer
  | none => []

/-- The frames that a key is looked up in, in order: the frame itself and those around it. -/
def chain (store : Store Act) (scope : FrameId) : List FrameId := scope :: store.outer scope

def parent? (store : Store Act) (frame : FrameId) : Option FrameId := (store.outer frame).head?

def owner? (store : Store Act) (scope : FrameId) (key : Key) : Option FrameId :=
  (store.chain scope).find? fun frame => ((store.bindings frame).find? key).isSome

def find? (store : Store Act) (scope : FrameId) (key : Key) : Option (Entry Act) :=
  (store.chain scope).findSome? fun frame => (store.bindings frame).find? key

def contains (store : Store Act) (scope : FrameId) (key : Key) : Bool :=
  (store.owner? scope key).isSome

def keys (store : Store Act) (frame : FrameId) : List Key := Bindings.keys (store.bindings frame)

/-! ### New frames -/

def add (store : Store Act) (outer : List FrameId) : FrameId × Store Act :=
  (store.size, ⟨store.frames.push ⟨[], outer⟩⟩)

def root (store : Store Act) : FrameId × Store Act := store.add []

def child (store : Store Act) (scope : FrameId) : FrameId × Store Act :=
  store.add (store.chain scope)

/-! ### Binding keys -/

def bind (store : Store Act) (frame : FrameId) (key : Key) (entry : Entry Act) : Store Act :=
  ⟨store.frames.modify frame fun f => { f with bindings := f.bindings.insert key entry }⟩

/-- Binds a key in one frame, if the entry is a stored value or an action. -/
def register (store : Store Act) (frame : FrameId) (key : Key) (entry : Entry Act) :
    Except ImproperEntry (Store Act) :=
  match entry with
  | .foreign _ kind => .error ⟨kind⟩
  | .stored _ | .action _ => .ok (store.bind frame key entry)

/-- The description of a frame: its keys, and whether there is a frame around it. -/
def describe (store : Store Act) (frame : FrameId) : Text :=
  "<Scope bindings=".toList ++ Text.bracketed ((store.keys frame).map Key.print)
    ++ (if (store.parent? frame).isSome then ", parent=#ID".toList else []) ++ ['>']

/-! ### What the operations do to the bindings -/

theorem bindings_bind (store : Store Act) (frame other : FrameId) (key : Key)
    (entry : Entry Act) (h : frame < store.size) :
    (store.bind frame key entry).bindings other
      = if frame = other then (store.bindings other).insert key entry
        else store.bindings other := by
  simp only [bindings, bind, Array.getElem?_modify]
  by_cases ho : frame = other
  · subst ho
    simp [Array.getElem?_eq_getElem (show frame < store.frames.size from h)]
  · simp [ho]

theorem outer_bind (store : Store Act) (frame other : FrameId) (key : Key)
    (entry : Entry Act) : (store.bind frame key entry).outer other = store.outer other := by
  simp only [outer, bind, Array.getElem?_modify]
  by_cases ho : frame = other
  · subst ho
    cases store.frames[frame]? <;> simp
  · simp [ho]

theorem bindings_add (store : Store Act) (around : List FrameId) (other : FrameId) :
    (store.add around).2.bindings other = store.bindings other := by
  simp only [bindings, add, Array.getElem?_push, size]
  by_cases h : other = store.frames.size
  · subst h; simp
  · simp [h]

theorem outer_add (store : Store Act) (around : List FrameId) {other : FrameId}
    (h : other < store.size) : (store.add around).2.outer other = store.outer other := by
  have hne : other ≠ store.frames.size := Nat.ne_of_lt h
  simp [outer, add, Array.getElem?_push, hne]

end Store

end Phrasebook
