import Phrasebook.Proofs.Evaluation.Calls
import Phrasebook.Proofs.Evaluation.Lookup

/-! # What a command leaves in the frames

The programs inside a command are evaluated in frames of their own, so the frames that there are
before it keep what they bind. The one thing that a command itself can do to them is to bind a name.

* `Eval.KeepsFrames` — computations that keep the frames of a store.
* `evaluate_keeps` — a program in a new frame, whatever it does there.
* `Store.Names`, `apply_frames` — one name more in one frame, and what binds it.
* `executeCommand_frames` — commands.
-/

namespace Phrasebook

variable {host : Host}

/-! ## Computations that keep frames -/

/-- However the computation ends, the frames of the store bind what they bound. -/
def Eval.KeepsFrames {Act Memory α : Type} (base : Store Act) (m : Eval Act Memory α) : Prop :=
  Eval.Ensures (fun state => base.KeepsAll state.store) (fun _ => True) m fun _ => True

/-- Nested programs keep the frames, as long as they are evaluated in new frames in the scope. -/
def Nested.KeepsFrames (base : Store host.Act) (scope : FrameId) (nested : Nested host) : Prop :=
  ∀ calls program, Eval.KeepsFrames base (Eval.child scope >>= nested.evaluate calls program)

theorem Eval.child_bind {α : Type} (scope : FrameId) (next : FrameId → host.Eval α)
    (state : host.State) :
    (Eval.child scope >>= next) state
      = next state.store.size { state with store := (state.store.child scope).2 } :=
  rfl

theorem evaluate_keeps [CallStack] {base : Store host.Act} {scope : FrameId} (h : base.Native scope)
    (maxDepth : Int) (calls : Nat) : Nested.KeepsFrames base scope (.under maxDepth calls) := by
  intro more program state hk
  -- The evaluation is compared with itself, as seen from the new frame.
  let outlook := (Outlook.first state.store scope).inner state.store
  have hsees : outlook.Sees (state.store.child scope).2 :=
    Outlook.Sees.inner (.first (h.of_keepsAll hk))
  let entered : host.State := { state with store := (state.store.child scope).2 }
  have hrun : (Comparison.lookup host).Results (outlook, outlook) state.depth Output.Agree
      ((Nested.under maxDepth calls).evaluate more program state.store.size entered)
      ((Nested.under maxDepth calls).evaluate more program state.store.size entered) :=
    evaluate_agrees (.lookup host) maxDepth calls more (.refl program) (outlook, outlook)
      state.depth entered entered ⟨⟨hsees, hsees, fun _ => rfl, rfl⟩, rfl, rfl⟩
  rw [Eval.child_bind]
  generalize (Nested.under maxDepth calls).evaluate more program state.store.size entered = result
    at hrun ⊢
  match result, hrun with
  | .ok output after, ⟨_, _, hafter⟩ =>
    exact ⟨trivial, hk.trans hafter.holds.sees_left.keepsAll_of_inner fun _ _ _ => trivial⟩
  | .error fault after, ⟨_, hafter⟩ =>
    exact ⟨trivial, hk.trans hafter.holds.sees_left.keepsAll_of_inner fun _ _ _ => trivial⟩

section

variable {base : Store host.Act} {scope : FrameId} {nested : Nested host}

theorem Nested.KeepsFrames.bind {α : Type} (hn : Nested.KeepsFrames base scope nested)
    (calls : Nat) (program : Program) {next : Output → host.Eval α}
    (hnext : ∀ output, Eval.KeepsFrames base (next output)) :
    Eval.KeepsFrames base
      (Eval.child scope >>= fun frame => nested.evaluate calls program frame >>= next) := by
  have hboth := (hn calls program).bind fun output _ => hnext output
  rwa [bind_assoc] at hboth

variable [CallStack]

theorem gather_keeps (hn : Nested.KeepsFrames base scope nested) : ∀ parts : List Part,
    Eval.KeepsFrames base (gather nested scope parts)
  | [] => .of_pure trivial
  | .word _ _ :: rest => (gather_keeps hn rest).bind fun _ _ => .of_pure trivial
  | .string _ _ :: rest => (gather_keeps hn rest).bind fun _ _ => .of_pure trivial
  | .filler content _ :: rest => by
    refine hn.bind _ content fun output => ?_
    cases output with
    | thrown value => exact .of_pure trivial
    | returned value => exact (gather_keeps hn rest).bind fun _ _ => .of_pure trivial
    | lastValue value => exact (gather_keeps hn rest).bind fun _ _ => .of_pure trivial
  | .foreign _ :: _ => .of_throw trivial

/-! ## Actions -/

theorem readProgram_keeps (calls : Nat) (text : Text) :
    Eval.KeepsFrames base (readProgram calls text : host.Eval (Except SyntaxError Program)) := by
  unfold readProgram
  split
  · exact .of_pure trivial
  · exact .of_pure trivial
  · exact .of_throw trivial

theorem runBranch_keeps (hn : Nested.KeepsFrames base scope nested) (condition branch : Value) :
    Eval.KeepsFrames base (runBranch nested scope condition branch) := by
  unfold runBranch
  split
  · exact .of_pure trivial
  · cases branch.string? with
    | none => exact .of_pure trivial
    | some text =>
      refine (readProgram_keeps _ text).bind fun read _ => ?_
      cases read with
      | error e => exact .of_pure trivial
      | ok program => exact hn.bind _ program fun _ => .of_pure trivial

/-- Every action but the one that binds names keeps the frames. -/
theorem performBuiltin_keeps (hn : Nested.KeepsFrames base scope nested) {action : Builtin}
    (ha : action ≠ .name) (args : List Value) :
    Eval.KeepsFrames base (performBuiltin nested scope action args) := by
  match action, args with
  | .branch, [condition, code] => exact runBranch_keeps hn condition code
  | .print, [value] => exact (Eval.Ensures.emit fun _ hk => hk).bind fun _ _ => .of_pure trivial
  | .throw, [value] => exact .of_pure trivial
  | .name, _ => exact absurd rfl ha
  -- Any other number of arguments is a fault.
  | .branch, [] | .branch, [_] | .branch, _ :: _ :: _ :: _ => exact .of_throw trivial
  | .print, [] | .print, _ :: _ :: _ => exact .of_throw trivial
  | .throw, [] | .throw, _ :: _ :: _ => exact .of_throw trivial

theorem apply_keeps (hn : Nested.KeepsFrames base scope nested) (key : Key) (args : List Value)
    {found : Option (Entry host.Act)} (hhost : ∀ action, found ≠ some (.action (.host action)))
    (hname : found ≠ some (.action (.builtin .name))) :
    Eval.KeepsFrames base (apply nested scope key args found) := by
  match found, hhost, hname with
  | none, _, _ => exact .of_pure trivial
  | some (.stored value), _, _ => exact .of_pure trivial
  | some (.action (.builtin action)), _, hname =>
    have ha : action ≠ .name := fun heq => hname (heq ▸ rfl)
    refine (performBuiltin_keeps hn ha args).bind fun output _ => ?_
    dsimp only
    split
    · exact (Eval.Ensures.record fun _ hk => hk).bind fun _ _ => .of_pure trivial
    · exact .of_pure trivial
  | some (.action (.host action)), hhost, _ => exact (hhost action rfl).elim
  | some (.foreign shown kind), _, _ => exact .of_throw trivial

end

/-! ## Binding a name -/

/-- The later store binds a key in the frame of the scope, as a new one behind the keys there were
    or in the place that it had, and has kept everything else. -/
structure Store.Names {Act : Type} (scope : FrameId) (key : Key) (value : Value)
    (base store : Store Act) : Prop where
  keeps : base.Keeps (· ≠ scope) store
  bound : (store.bindings scope).find? key = some (.stored value)
  others : ∀ other, other ≠ key →
    (store.bindings scope).find? other = (base.bindings scope).find? other
  keys_eq : store.keys scope
    = if key ∈ base.keys scope then base.keys scope else base.keys scope ++ [key]

/-- Binding a key where the frames have been kept changes one frame by one key. -/
theorem Store.KeepsAll.names {Act : Type} {base store : Store Act} (hk : base.KeepsAll store)
    {scope : FrameId} (hs : scope < base.size) (key : Key) (value : Value) :
    base.Names scope key value (store.bind scope key (.stored value)) := by
  have hscope : scope < store.size := Nat.lt_of_lt_of_le hs hk.size_le
  have hbindings : (store.bind scope key (.stored value)).bindings scope
      = (base.bindings scope).insert key (.stored value) := by
    rw [bindings_bind _ _ _ _ _ hscope, if_pos rfl, hk.bindings_eq scope hs trivial]
  refine ⟨(hk.mono fun _ _ => trivial).trans (.bind hscope key _) fun _ _ hne => hne, ?_, ?_, ?_⟩
  · rw [hbindings, Bindings.find?_insert, if_pos rfl]
  · intro other hne
    rw [hbindings, Bindings.find?_insert, if_neg (Ne.symm hne)]
  · rw [keys, hbindings, Bindings.keys_insert]
    rfl

section

variable [CallStack]

/-- An attempt to bind a name binds one, without gaps, or leaves the state as it was and throws or
    ends in a fault. -/
theorem bindName_cases (calls : Nat) (scope : FrameId) (value name : Value) (state : host.State) :
    (∃ key, key.arity = 0 ∧ bindName calls scope value name state
        = .ok .ok { state with store := state.store.bind scope key (.stored value) })
      ∨ (∃ message, bindName calls scope value name state = .ok (.error message) state)
      ∨ ∃ fault, bindName calls scope value name state = .error fault state := by
  unfold bindName
  cases name.string? with
  | none => exact .inr (.inl ⟨_, rfl⟩)
  | some text =>
    dsimp only
    unfold readProgram
    cases parseProgramWithin (readingLimit calls) text with
    | error fault =>
      cases fault with
      | malformed e => exact .inr (.inl ⟨_, rfl⟩)
      | tooDeep => exact .inr (.inr ⟨_, rfl⟩)
    | ok program =>
      simp only [pure_bind]
      cases hkey : nameKey? text program with
      | error message => exact .inr (.inl ⟨message, rfl⟩)
      | ok key => exact .inl ⟨key, arity_of_nameKey? hkey, rfl⟩

/-- The action that binds names binds its first argument under a key without gaps, or it keeps the
    frames and throws or ends in a fault. -/
theorem apply_name_frames {base : Store host.Act} {scope : FrameId} (hs : scope < base.size)
    (nested : Nested host) (key : Key) (args : List Value) (state : host.State)
    (hk : base.KeepsAll state.store) :
    match apply nested scope key args (some (.action (.builtin .name))) state with
    | .ok output after =>
      (output.thrown? = none ∧ ∃ value name bound, args = [value, name] ∧ bound.arity = 0
          ∧ base.Names scope bound value after.store)
        ∨ (output.thrown? ≠ none ∧ base.KeepsAll after.store)
    | .error _ after => base.KeepsAll after.store := by
  match args with
  | [value, name] =>
    have happly : apply nested scope key [value, name] (some (.action (.builtin .name))) state
        = EStateM.bind (bindName nested.calls scope value name) (fun output => do
          if output.isThrown then Eval.record (.thrownBy key output.value)
          return output) state := rfl
    rw [happly]
    unfold EStateM.bind
    obtain ⟨bound, hbound, hrun⟩ | ⟨message, hrun⟩ | ⟨fault, hrun⟩ :=
      bindName_cases nested.calls scope value name state
    · rw [hrun]
      exact .inl ⟨rfl, value, name, bound, rfl, hbound, hk.names hs bound value⟩
    · rw [hrun]
      exact .inr ⟨Option.some_ne_none _, hk⟩
    · rw [hrun]
      exact hk
  -- Any other number of arguments is a fault.
  | [] | [_] | _ :: _ :: _ :: _ => exact hk

/-- Whatever a key means, only the action that binds names changes a frame that was there, and only
    if it does not throw. -/
theorem apply_frames {base : Store host.Act} {scope : FrameId} (hs : scope < base.size)
    {nested : Nested host} (hn : Nested.KeepsFrames base scope nested) (key : Key)
    (args : List Value) {found : Option (Entry host.Act)}
    (hhost : ∀ action, found ≠ some (.action (.host action))) (state : host.State)
    (hk : base.KeepsAll state.store) :
    match apply nested scope key args found state with
    | .ok output after =>
      let names : Prop := output.thrown? = none ∧ found = some (.action (.builtin .name))
      (names → ∃ value name bound, args = [value, name] ∧ bound.arity = 0
          ∧ base.Names scope bound value after.store)
        ∧ (¬ names → base.KeepsAll after.store)
    | .error _ after => base.KeepsAll after.store := by
  by_cases hname : found = some (.action (.builtin .name))
  · subst hname
    have happly := apply_name_frames hs nested key args state hk
    split
    · next output after hrun =>
      rw [hrun] at happly
      obtain ⟨hreturned, hnames⟩ | ⟨hthrown, hstore⟩ := happly
      · exact ⟨fun _ => hnames, fun hnot => absurd ⟨hreturned, rfl⟩ hnot⟩
      · exact ⟨fun hnames => absurd hnames.1 hthrown, fun _ => hstore⟩
    · next fault after hrun =>
      rw [hrun] at happly
      exact happly
  · have happly := apply_keeps hn key args hhost hname state hk
    split
    · next output after hrun =>
      rw [hrun] at happly
      exact ⟨fun hnames => absurd hnames.2 hname, fun _ => happly.2⟩
    · next fault after hrun =>
      rw [hrun] at happly
      exact happly.2

/-! ## Commands -/

/-- What a command leaves in the frames that there are when it begins, in a scope without actions
    of an embedding program. They bind what they bound, and are inside each other as they were,
    whatever programs are evaluated on the way and however the command ends. There is one exception.
    A command that means the action for binding names, and does not throw, binds its first argument
    under one key without gaps, in the frame of the scope. -/
theorem executeCommand_frames {scope : FrameId} {state : host.State}
    (h : state.store.Native scope) (maxDepth : Int) (calls : Nat) (command : Command) :
    match executeCommand maxDepth calls command scope state with
    | .ok output after =>
      let names : Prop := output.thrown? = none
        ∧ state.store.find? scope (.ofCommand command) = some (.action (.builtin .name))
      (names → ∃ places value name called key,
        buildCall maxDepth calls command scope state = .ok (.ready places [value, name]) called
          ∧ key.arity = 0 ∧ state.store.Names scope key value after.store)
        ∧ (¬ names → state.store.KeepsAll after.store)
    | .error _ after => state.store.KeepsAll after.store := by
  have hkept := gather_keeps (evaluate_keeps h maxDepth calls) command.parts state (.refl _ _)
  cases hcall : gather (.under maxDepth calls) scope command.parts state with
  | error fault called =>
    rw [hcall] at hkept
    rw [executeCommand, execute_of_gather_error hcall]
    exact hkept.2
  | ok call called =>
    rw [hcall] at hkept
    cases call with
    | thrown value =>
      rw [executeCommand, execute_of_gather_thrown hcall]
      exact ⟨fun hnames => absurd hnames.1 (Option.some_ne_none value), fun _ => hkept.2⟩
    | ready places args =>
      have happly := apply_frames h.scope_lt (evaluate_keeps h maxDepth calls) (.ofCommand command)
        args (h.find?_ne (.ofCommand command)) (called.record (.dispatched (.ofCommand command) args
          (state.store.find? scope (.ofCommand command)))) hkept.2
      -- The key means what it meant before the fillers were evaluated.
      rw [executeCommand, execute_of_gather hcall, h.find?_eq hkept.2]
      split
      · next output after hrun =>
        rw [hrun] at happly
        refine ⟨fun hnames => ?_, happly.2⟩
        obtain ⟨value, name, bound, rfl, hbound⟩ := happly.1 hnames
        exact ⟨places, value, name, called, bound, hcall, hbound⟩
      · next fault after hrun =>
        rw [hrun] at happly
        exact happly

end

open StandardStack

/-- A command that binds a name, with a filler that binds one in a branch. -/
theorem executeCommand_frames_of_branch :
    let store : Store Empty := ((bindActions Store.empty.root.2 0 builtinActions).1.child 0).2
    let state : Host.alone.State := { State.initial () with store }
    let program := (parseProgram "name (if {1}, then {name {2} as {y}}) as {x}".toList).toOption
    let command := (program.bind List.head?).getD (.mk [] none)
    ∃ after, executeCommand 10 0 command 1 state = .ok .ok after
      ∧ ∃ key value, key.arity = 0 ∧ store.Names 1 key value after.store := by
  intro store state program command
  have hs : state.store.Native 1 := ⟨by decide +kernel, fun _ _ _ action => action.elim⟩
  have hname : store.find? 1 (.ofCommand command) = some (.action (.builtin .name)) := by
    decide +kernel
  have hok : (match executeCommand 10 0 command 1 state with
      | .ok output _ => some output
      | .error _ _ => none) = some .ok := by
    decide +kernel
  have hframes := executeCommand_frames hs 10 0 command
  cases hrun : executeCommand 10 0 command 1 state with
  | error fault after =>
    rw [hrun] at hok
    cases hok
  | ok output after =>
    rw [hrun] at hok hframes
    obtain rfl := Option.some.inj hok
    obtain ⟨_, value, _, _, key, _, hkey, hbound⟩ := hframes.1 ⟨rfl, hname⟩
    exact ⟨after, rfl, key, value, hkey, hbound⟩

end Phrasebook
