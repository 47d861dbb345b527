import Phrasebook.Evaluation.Evaluator
import Phrasebook.Proofs.Evaluation.Ensures

/-! # The calls that commands are reduced to

* `Eval.bind_eq_ok_iff` — what comes of a sequence of computations.
* `evaluateInside` — what a filler does, and what a branch does.
* `Call.Of` — a call has the places of the parts of a command.
* `gather_of` — whatever the fillers of a command do, its call has its places.
* `execute_of_gather`, `execute_of_gather_thrown`, `execute_of_gather_error` — a command is called
  under its own key, or given up before it is called.
* `callEnd`, `apply_action` — a call that means an action performs it.
-/

namespace Phrasebook

variable {host : Host}

/-- A sequence of computations comes to a value if its first part does, and the rest from there. -/
theorem Eval.bind_eq_ok_iff {Act Memory α β : Type} {m : Eval Act Memory α}
    {next : α → Eval Act Memory β} {state after : State Act Memory} {result : β} :
    (m >>= next) state = .ok result after
      ↔ ∃ value middle, m state = .ok value middle ∧ next value middle = .ok result after := by
  show EStateM.bind m next state = _ ↔ _
  unfold EStateM.bind
  cases m state with
  | ok value middle =>
    constructor
    · intro h
      exact ⟨value, middle, rfl, h⟩
    · rintro ⟨_, _, ⟨⟩, h⟩
      exact h
  | error fault middle => exact ⟨nofun, by rintro ⟨_, _, ⟨⟩, _⟩⟩

/-- The evaluation of a program in a new frame inside the scope, which is what fillers and branches
    do, each in its own way. -/
def evaluateInside (run : Program → FrameId → host.Eval Output) (program : Program)
    (scope : FrameId) : host.Eval Output := do
  run program (← Eval.child scope)

/-- A call that is made has the places of the parts it was gathered from. -/
def Call.Of (parts : List Part) (call : Call) : Prop :=
  ∀ places args, call = .ready places args → places = parts.map KeyPart.ofPart

theorem Call.Of.withWord {parts : List Part} {call : Call} (h : call.Of parts) (text : Text)
    (at? : Option Position) : (call.withWord text).Of (.word text at? :: parts) := by
  rintro places args heq
  cases call with
  | ready places' args' =>
    cases heq
    exact congrArg _ (h _ _ rfl)
  | thrown value => cases heq

theorem Call.Of.withArg {parts : List Part} {call : Call} (h : call.Of parts) (arg : Value)
    {part : Part} (hp : KeyPart.ofPart part = .gap) : (call.withArg arg).Of (part :: parts) := by
  rintro places args heq
  cases call with
  | ready places' args' =>
    cases heq
    rw [List.map_cons, hp]
    exact congrArg _ (h _ _ rfl)
  | thrown value => cases heq

variable [CallStack]

/-- Whatever nested programs do, the places of a call are those of the parts. -/
theorem gather_of (nested : Nested host) (scope : FrameId) : ∀ parts : List Part,
    Eval.Ensures (fun _ => True) (fun _ => True) (gather nested scope parts) (Call.Of parts)
  | [] => .of_pure (by rintro _ _ ⟨⟩; rfl)
  | .word text at? :: rest =>
    (gather_of nested scope rest).bind fun _ hcall => .of_pure (hcall.withWord text at?)
  | .string text at? :: rest =>
    (gather_of nested scope rest).bind fun _ hcall => .of_pure (hcall.withArg _ rfl)
  | .filler content at? :: rest => by
    refine (Eval.Ensures.child fun _ _ => trivial).bind fun frame _ => ?_
    refine (Eval.Ensures.of_reached fun _ _ => trivial).bind fun output _ => ?_
    cases output with
    | thrown value => exact .of_pure nofun
    | returned value =>
      exact (gather_of nested scope rest).bind fun _ hcall => .of_pure (hcall.withArg value rfl)
    | lastValue value =>
      exact (gather_of nested scope rest).bind fun _ hcall => .of_pure (hcall.withArg value rfl)
  | .foreign label :: rest => .of_throw trivial

/-- A command that comes to its call looks its own key up, records that, and applies what it
    found. -/
theorem execute_of_gather {nested : Nested host} {scope : FrameId} {command : Command}
    {state after : host.State} {places : List KeyPart} {args : List Value}
    (h : gather nested scope command.parts state = .ok (.ready places args) after) :
    execute nested scope command state
      = apply nested scope (.ofCommand command) args (after.store.find? scope (.ofCommand command))
          (after.record (.dispatched (.ofCommand command) args
            (after.store.find? scope (.ofCommand command)))) := by
  have hcall := gather_of nested scope command.parts state trivial
  rw [h] at hcall
  obtain rfl : places = command.parts.map KeyPart.ofPart := hcall.1 places args rfl
  show EStateM.bind (gather nested scope command.parts) _ state = _
  unfold EStateM.bind
  rw [h]
  rfl

/-- A command with a filler that throws, throws the same. -/
theorem execute_of_gather_thrown {nested : Nested host} {scope : FrameId} {command : Command}
    {state after : host.State} {value : Value}
    (h : gather nested scope command.parts state = .ok (.thrown value) after) :
    execute nested scope command state
      = .ok (.thrown value) (after.record (.thrownInFiller value)) := by
  show EStateM.bind (gather nested scope command.parts) _ state = _
  unfold EStateM.bind
  rw [h]
  rfl

theorem execute_of_gather_error {nested : Nested host} {scope : FrameId} {command : Command}
    {state after : host.State} {fault : Fault}
    (h : gather nested scope command.parts state = .error fault after) :
    execute nested scope command state = .error fault after := by
  show EStateM.bind (gather nested scope command.parts) _ state = _
  unfold EStateM.bind
  rw [h]

/-- What a call under a key makes of the end of an action: what is thrown is recorded. -/
def callEnd (key : Key) : EStateM.Result Fault host.State Output →
    EStateM.Result Fault host.State Output
  | .ok output after =>
    .ok output (if output.isThrown then after.record (.thrownBy key output.value) else after)
  | .error fault after => .error fault after

/-- A call that means an action performs it. -/
theorem apply_action (nested : Nested host) (scope : FrameId) (key : Key) (args : List Value)
    (action : Action host.Act) (state : host.State) :
    apply nested scope key args (some (.action action)) state
      = callEnd key (perform nested scope action args state) := by
  show EStateM.bind (perform nested scope action args) _ state = _
  unfold EStateM.bind
  cases perform nested scope action args state with
  | error fault after => rfl
  | ok output after => cases output <;> rfl

end Phrasebook
