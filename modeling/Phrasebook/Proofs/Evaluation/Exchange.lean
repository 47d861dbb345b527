import Phrasebook.Proofs.Evaluation.Compositional
import Phrasebook.Proofs.Evaluation.Ensures

/-! # Nested evaluations exchanged

One level of nesting knows the next only as an evaluation of programs. Where that is exchanged for
another one that does the same, the level does the same too. It is enough that the two agree up to
what is excused: values that the first of them throws, and faults that it ends in. Nothing catches
what is thrown, and no fault is mended, so what is excused inside is excused outside.

* `Eval.Follows` — a computation does what another one does, but for what is excused.
* `TraceEvent.opening` — what an event tells of the programs that are open.
* `Host.Keeps` — the properties of states that are not lost on the way.
* `Nested.Follows` — a level does what another one does.
* `gather_follows`, `execute_follows`, `runCommands_follows` — what is done at such levels.
-/

namespace Phrasebook

namespace Eval

variable {Act Memory α β : Type}

/-- From every state with `Inv`, the second computation does what the first one does, and comes to
    a state with `Inv`, unless the first comes to a value or to a fault that is excused. -/
def Follows (Inv : State Act Memory → Prop) (Faults : Fault → Prop) (Excused : α → Prop)
    (m m' : Eval Act Memory α) : Prop :=
  ∀ state, Inv state →
    match m state with
    | .ok value after => Excused value ∨ (m' state = .ok value after ∧ Inv after)
    | .error fault after => Faults fault ∨ (m' state = .error fault after ∧ Inv after)

namespace Follows

variable {Inv : State Act Memory → Prop} {Faults : Fault → Prop} {Excused : α → Prop}

theorem of_eq {m m' : Eval Act Memory α} (h : Ensures Inv (fun _ => True) m fun _ => True)
    (heq : ∀ state, Inv state → m' state = m state) : Follows Inv Faults Excused m m' := by
  intro state hs
  have hrun := h state hs
  rw [heq state hs]
  cases hm : m state with
  | ok value after =>
    rw [hm] at hrun
    exact .inr ⟨rfl, hrun.2⟩
  | error fault after =>
    rw [hm] at hrun
    exact .inr ⟨rfl, hrun.2⟩

/-- A computation follows itself. -/
theorem refl {m : Eval Act Memory α} (h : Ensures Inv (fun _ => True) m fun _ => True) :
    Follows Inv Faults Excused m m :=
  of_eq h fun _ _ => rfl

theorem eq_of_not_excused {m m' : Eval Act Memory α} {state : State Act Memory}
    (h : Follows Inv Faults Excused m m') (hs : Inv state)
    (hvalue : ∀ value after, m state = .ok value after → ¬ Excused value)
    (hfault : ∀ fault after, m state = .error fault after → ¬ Faults fault) :
    m' state = m state := by
  have hrun := h state hs
  cases hm : m state with
  | ok value after =>
    rw [hm] at hrun
    obtain hexcused | ⟨hsame, -⟩ := hrun
    · exact absurd hexcused (hvalue value after hm)
    · exact hsame
  | error fault after =>
    rw [hm] at hrun
    obtain hexcused | ⟨hsame, -⟩ := hrun
    · exact absurd hexcused (hfault fault after hm)
    · exact hsame

theorem of_pure (value : α) : Follows Inv Faults Excused (pure value) (pure value) :=
  refl (.of_pure trivial)

theorem of_throw (fault : Fault) : Follows Inv Faults Excused (throw fault) (throw fault) :=
  refl (.of_throw trivial)

/-- What is excused must be excused whatever is made of it. -/
theorem bind {m m' : Eval Act Memory α} {next next' : α → Eval Act Memory β}
    {Later : β → Prop} (hm : Follows Inv Faults Excused m m')
    (hexcused : ∀ value, Excused value → ∀ state, ∃ result after,
      next value state = .ok result after ∧ Later result)
    (hnext : ∀ value, Follows Inv Faults Later (next value) (next' value)) :
    Follows Inv Faults Later (m >>= next) (m' >>= next') := by
  intro state hs
  have hrun := hm state hs
  show match EStateM.bind m next state with
    | .ok value after => Later value ∨ (EStateM.bind m' next' state = .ok value after ∧ Inv after)
    | .error fault after =>
      Faults fault ∨ (EStateM.bind m' next' state = .error fault after ∧ Inv after)
  unfold EStateM.bind
  cases hr : m state with
  | ok value after =>
    rw [hr] at hrun
    obtain hvalue | ⟨hm', hafter⟩ := hrun
    -- Nothing is known of the second computation any more, so the first must answer for both.
    · obtain ⟨result, last, hresult, hlater⟩ := hexcused value hvalue after
      dsimp only
      rw [hresult]
      exact .inl hlater
    · rw [hm']
      exact hnext value after hafter
  | error fault after =>
    rw [hr] at hrun
    obtain hfault | ⟨hm', hafter⟩ := hrun
    · exact .inl hfault
    · rw [hm']
      exact .inr ⟨rfl, hafter⟩

/-- A first step that is the same in both. -/
theorem step_bind {m : Eval Act Memory α} {next next' : α → Eval Act Memory β} {Later : β → Prop}
    (hm : Ensures Inv (fun _ => True) m fun _ => True)
    (hnext : ∀ value, Follows Inv Faults Later (next value) (next' value)) :
    Follows Inv Faults Later (m >>= next) (m >>= next') :=
  have hfirst : Follows Inv Faults (fun _ => False) m m := refl hm
  hfirst.bind nofun hnext

theorem get_bind {next next' : State Act Memory → Eval Act Memory β} {Later : β → Prop}
    (h : ∀ state, Inv state → Follows Inv Faults Later (next state) (next' state)) :
    Follows Inv Faults Later (get >>= next) (get >>= next') :=
  fun state hs => h state hs state hs

/-- One level further in another property may be kept. -/
theorem nest {Inner : State Act Memory → Prop} {m m' : Eval Act Memory α}
    (hm : Follows Inner Faults Excused m m') (henter : ∀ state, Inv state → Inner state.enter)
    (hleave : ∀ state, Inner state → Inv state.leave) :
    Follows Inv Faults Excused (Eval.nest m) (Eval.nest m') := by
  intro state hs
  have hrun := hm state.enter (henter state hs)
  unfold Eval.nest
  cases hr : m state.enter with
  | ok value after =>
    rw [hr] at hrun
    obtain hvalue | ⟨hm', hafter⟩ := hrun
    · exact .inl hvalue
    · rw [hm']
      exact .inr ⟨rfl, hleave after hafter⟩
  | error fault after =>
    rw [hr] at hrun
    obtain hfault | ⟨hm', hafter⟩ := hrun
    · exact .inl hfault
    · rw [hm']
      exact .inr ⟨rfl, hleave after hafter⟩

end Follows

end Eval

/-! ## What is excused -/

/-- The output throws a value that is excused. -/
def Output.Throws (Excused : Value → Prop) (output : Output) : Prop :=
  ∃ value, output = .thrown value ∧ Excused value

/-- A filler of the command has thrown a value that is excused. -/
def Call.Throws (Excused : Value → Prop) (call : Call) : Prop :=
  ∃ value, call = .thrown value ∧ Excused value

/-! ## What is kept -/

/-- By how much an event changes the number of programs that are open. -/
def TraceEvent.opening {Act : Type} : TraceEvent Act → Int
  | opened _ => 1
  | closed => -1
  | began _ | dispatched _ _ _ | thrownInFiller _ | thrownBy _ _ => 0

variable {host : Host}

/-- What evaluations do step by step, without a program being opened or closed, keeps the property
    of states. -/
structure Host.Keeps (host : Host) (Inv : host.State → Prop) : Prop where
  record {state : host.State} {event : TraceEvent host.Act} : event.opening = 0 → Inv state →
    Inv (state.record event)
  emit {state : host.State} (channel : Channel) (message : Text) :
    Inv state → Inv (state.emit channel message)
  store {state : host.State} (store : Store host.Act) : Inv state → Inv { state with store }
  perform (action : host.Act) (scope? : Option FrameId) (args : List Value) :
    Eval.Ensures Inv (fun _ => True) (host.perform action scope? args) fun _ => True

/-- Where nothing is asked of states there is nothing to keep. -/
theorem Host.keeps_true (host : Host) : host.Keeps fun _ => True where
  record _ _ := trivial
  emit _ _ _ := trivial
  store _ _ := trivial
  perform _ _ _ := .of_reached fun _ _ => trivial

namespace Host.Keeps

variable {Inv : host.State → Prop}

theorem ensures_record (h : host.Keeps Inv) {event : TraceEvent host.Act}
    (he : event.opening = 0) :
    Eval.Ensures Inv (fun _ => True) (Eval.record event) fun _ => True :=
  .record fun _ hs => h.record he hs

/-- Whatever does not evaluate programs keeps the property. -/
theorem compositional (h : host.Keeps Inv) :
    Eval.Compositional fun m => Eval.Ensures Inv (fun _ => True) m fun _ => True where
  of_pure _ := .of_pure trivial
  of_throw _ := .of_throw trivial
  bind hm hnext := hm.bind fun value _ => hnext value
  child _ := .child fun _ hs => h.store _ hs
  register _ _ _ := .register_stored fun _ hs => h.store _ hs
  emit _ _ := .emit fun _ hs => h.emit _ _ hs
  thrownInFiller _ := h.ensures_record rfl
  thrownBy _ _ := h.ensures_record rfl
  dispatch_bind _ _ _ _ hnext := .get_bind fun _ _ => (h.ensures_record rfl).bind fun _ _ => hnext _
  began_bind hnext := .get_bind fun _ _ => (h.ensures_record rfl).bind fun _ _ => hnext
  perform := h.perform

end Host.Keeps

/-! ## One level of nesting -/

section

variable {Inv : host.State → Prop} {Faults : Fault → Prop} {Excused : Value → Prop}

theorem Eval.Follows.withWord {call call' : host.Eval Call}
    (h : Eval.Follows Inv Faults (Call.Throws Excused) call call') (text : Text) :
    Eval.Follows Inv Faults (Call.Throws Excused) (do return (← call).withWord text)
      (do return (← call').withWord text) := by
  refine h.bind ?_ fun _ => .of_pure _
  rintro _ ⟨value, rfl, hvalue⟩ state
  exact ⟨_, state, rfl, value, rfl, hvalue⟩

theorem Eval.Follows.withArg {call call' : host.Eval Call}
    (h : Eval.Follows Inv Faults (Call.Throws Excused) call call') (arg : Value) :
    Eval.Follows Inv Faults (Call.Throws Excused) (do return (← call).withArg arg)
      (do return (← call').withArg arg) := by
  refine h.bind ?_ fun _ => .of_pure _
  rintro _ ⟨value, rfl, hvalue⟩ state
  exact ⟨_, state, rfl, value, rfl, hvalue⟩

end

variable [CallStack]

/-- At the second level programs are read, and evaluated as fillers and as branches, as they are at
    the first. -/
structure Nested.Follows (Inv : host.State → Prop) (Faults : Fault → Prop) (Excused : Value → Prop)
    (nested nested' : Nested host) : Prop where
  read (text : Text) :
    Eval.Follows Inv Faults (fun _ => False) (readProgram nested.calls text)
      (readProgram nested'.calls text)
  filler (program : Program) (scope : FrameId) :
    Eval.Follows Inv Faults (Output.Throws Excused) (nested.filler program scope)
      (nested'.filler program scope)
  branch (program : Program) (scope : FrameId) :
    Eval.Follows Inv Faults (Output.Throws Excused) (nested.branch program scope)
      (nested'.branch program scope)

section

variable {Inv : host.State → Prop} {Faults : Fault → Prop} {Excused : Value → Prop}
  {nested nested' : Nested host}

/-- With as many calls open, only the evaluations count. -/
theorem Nested.Follows.of_evaluate (hk : host.Keeps Inv) (calls : Nat)
    {evaluation evaluation' : Evaluation host}
    (h : ∀ calls program scope, Eval.Follows Inv Faults (Output.Throws Excused)
      (evaluation calls program scope) (evaluation' calls program scope)) :
    Nested.Follows Inv Faults Excused ⟨calls, evaluation⟩ ⟨calls, evaluation'⟩ where
  read text := .refl (hk.compositional.readProgram calls text)
  filler := h _
  branch := h _

theorem gather_follows (hk : host.Keeps Inv)
    (hn : Nested.Follows Inv Faults Excused nested nested') (scope : FrameId) : ∀ parts : List Part,
    Eval.Follows Inv Faults (Call.Throws Excused) (gather nested scope parts)
      (gather nested' scope parts)
  | [] => .of_pure _
  | .word text _ :: rest => (gather_follows hk hn scope rest).withWord text
  | .string text _ :: rest => (gather_follows hk hn scope rest).withArg (.string text)
  | .filler content _ :: rest => by
    refine .step_bind (hk.compositional.child scope) fun frame => ?_
    refine (hn.filler content frame).bind ?_ fun output => ?_
    · rintro _ ⟨value, rfl, hvalue⟩ state
      exact ⟨_, state, rfl, value, rfl, hvalue⟩
    · cases output with
      | thrown value => exact .of_pure _
      | returned value => exact (gather_follows hk hn scope rest).withArg value
      | lastValue value => exact (gather_follows hk hn scope rest).withArg value
  | .foreign _ :: _ => .of_throw _

theorem bindName_follows (hk : host.Keeps Inv)
    (hn : Nested.Follows Inv Faults Excused nested nested') (scope : FrameId) (value name : Value) :
    Eval.Follows Inv Faults (Output.Throws Excused) (bindName nested.calls scope value name)
      (bindName nested'.calls scope value name) := by
  unfold bindName
  cases name.string? with
  | none => exact .of_pure _
  | some text =>
    refine (hn.read text).bind nofun fun read => ?_
    cases read with
    | error e => exact .of_pure _
    | ok program =>
      dsimp only
      split
      · exact .of_pure _
      · exact .step_bind (hk.compositional.register scope _ value) fun _ => .of_pure _

/-- A branch throws on what its program throws. -/
theorem runBranch_follows (hk : host.Keeps Inv)
    (hn : Nested.Follows Inv Faults Excused nested nested') (scope : FrameId)
    (condition branch : Value) :
    Eval.Follows Inv Faults (Output.Throws Excused) (runBranch nested scope condition branch)
      (runBranch nested' scope condition branch) := by
  unfold runBranch
  split
  · exact .of_pure _
  · cases branch.string? with
    | none => exact .of_pure _
    | some text =>
      refine (hn.read text).bind nofun fun read => ?_
      cases read with
      | error e => exact .of_pure _
      | ok program =>
        refine .step_bind (hk.compositional.child scope) fun frame => ?_
        refine (hn.branch program frame).bind ?_ fun output => .of_pure _
        rintro _ ⟨value, rfl, hvalue⟩ state
        exact ⟨_, state, rfl, value, rfl, hvalue⟩

/-- Only a branch evaluates programs. -/
theorem perform_follows (hk : host.Keeps Inv)
    (hn : Nested.Follows Inv Faults Excused nested nested') (scope : FrameId)
    (action : Action host.Act) (args : List Value) :
    Eval.Follows Inv Faults (Output.Throws Excused) (perform nested scope action args)
      (perform nested' scope action args) := by
  cases action with
  | host action => exact .refl (hk.perform action _ args)
  | builtin action =>
    match action, args with
    | .branch, [condition, code] => exact runBranch_follows hk hn scope condition code
    | .name, [value, spelling] => exact bindName_follows hk hn scope value spelling
    | .print, [value] =>
      exact .step_bind (hk.compositional.emit .stdout value.display) fun _ => .of_pure _
    | .throw, [value] => exact .of_pure _
    -- Any other number of arguments is a fault.
    | .branch, [] | .branch, [_] | .branch, _ :: _ :: _ :: _ => exact .of_throw _
    | .name, [] | .name, [_] | .name, _ :: _ :: _ :: _ => exact .of_throw _
    | .print, [] | .print, _ :: _ :: _ => exact .of_throw _
    | .throw, [] | .throw, _ :: _ :: _ => exact .of_throw _

theorem apply_follows (hk : host.Keeps Inv)
    (hn : Nested.Follows Inv Faults Excused nested nested') (scope : FrameId) (key : Key)
    (args : List Value) (found : Option (Entry host.Act)) :
    Eval.Follows Inv Faults (Output.Throws Excused) (apply nested scope key args found)
      (apply nested' scope key args found) := by
  match found with
  | none => exact .of_pure _
  | some (.stored value) => exact .of_pure _
  | some (.foreign shown kind) => exact .of_throw _
  | some (.action action) =>
    refine (perform_follows hk hn scope action args).bind ?_ fun output => ?_
    · rintro _ ⟨value, rfl, hvalue⟩ state
      exact ⟨_, state.record (.thrownBy key value), rfl, value, rfl, hvalue⟩
    · dsimp only
      split
      · exact .step_bind (hk.ensures_record rfl) fun _ => .of_pure _
      · exact .of_pure _

theorem execute_follows (hk : host.Keeps Inv)
    (hn : Nested.Follows Inv Faults Excused nested nested') (scope : FrameId) (command : Command) :
    Eval.Follows Inv Faults (Output.Throws Excused) (execute nested scope command)
      (execute nested' scope command) := by
  refine (gather_follows hk hn scope command.parts).bind ?_ fun call => ?_
  · rintro _ ⟨value, rfl, hvalue⟩ state
    exact ⟨_, state.record (.thrownInFiller value), rfl, value, rfl, hvalue⟩
  cases call with
  | thrown value => exact .step_bind (hk.ensures_record rfl) fun _ => .of_pure _
  | ready places args =>
    refine .get_bind fun state _ => ?_
    exact .step_bind (hk.ensures_record rfl) fun _ => apply_follows hk hn scope _ args _

theorem runCommands_follows (hk : host.Keeps Inv)
    (hn : Nested.Follows Inv Faults Excused nested nested') (scope : FrameId) :
    ∀ (program : List Command) (last : Value),
    Eval.Follows Inv Faults (Output.Throws Excused) (runCommands nested scope program last)
      (runCommands nested' scope program last)
  | [], _ => .of_pure _
  | command :: rest, _ => by
    refine .get_bind fun state _ => .step_bind (hk.ensures_record rfl) fun _ => ?_
    refine (execute_follows hk hn scope command).bind ?_ fun output => ?_
    · rintro _ ⟨value, rfl, hvalue⟩ state
      exact ⟨_, state, rfl, value, rfl, hvalue⟩
    cases output with
    | thrown value => exact .of_pure _
    | returned value => exact runCommands_follows hk hn scope rest value
    | lastValue value => exact runCommands_follows hk hn scope rest value

/-- The stack has room for both calls, or for neither. -/
theorem Eval.Follows.onStack {α : Type} {Excused : α → Prop} {m m' : host.Eval α}
    (h : Eval.Follows Inv Faults Excused m m') (calls : Nat) :
    Eval.Follows Inv Faults Excused (onStack calls m) (onStack calls m') := by
  unfold Phrasebook.onStack
  split
  · exact h
  · exact .of_throw _

end

end Phrasebook
