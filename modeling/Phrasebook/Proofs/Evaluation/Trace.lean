import Phrasebook.Proofs.Evaluation.Comparison
import Phrasebook.Proofs.Evaluation.Compositional

/-! # The trace of an evaluation

The trace is only written to: what has been told of an evaluation so far makes no difference to what
it does next.

* `State.untraced`, `Eval.untraced` — states and results with the trace left out.
* `Eval.IgnoresTrace` — computations that the trace makes no difference to.
* `evaluate_ignoresTrace` — the evaluation of a program is one, if the actions of the embedding
  program are.
-/

namespace Phrasebook

variable {Act Memory α β : Type}

/-! ## States and results without the trace -/

def State.untraced (state : State Act Memory) : State Act Memory := { state with trace := #[] }

namespace Eval

def untraced : EStateM.Result Fault (State Act Memory) α → EStateM.Result Fault (State Act Memory) α
  | .ok value after => .ok value after.untraced
  | .error fault after => .error fault after.untraced

theorem untraced_eq_ok_iff {result : EStateM.Result Fault (State Act Memory) α} {value : α}
    {last : State Act Memory} :
    untraced result = .ok value last
      ↔ ∃ after, result = .ok value after ∧ after.untraced = last := by
  cases result with
  | ok other after =>
    constructor
    · rintro ⟨⟩
      exact ⟨after, rfl, rfl⟩
    · rintro ⟨_, ⟨⟩, rfl⟩
      rfl
  | error fault after => exact ⟨nofun, nofun⟩

/-- Whatever the trace tells, the same comes of the computation, up to the trace. -/
def IgnoresTrace (m : Eval Act Memory α) : Prop :=
  ∀ state, untraced (m state) = untraced (m state.untraced)

/-- What comes of a computation if it goes on from a result. -/
def andThen (next : α → Eval Act Memory β) :
    EStateM.Result Fault (State Act Memory) α → EStateM.Result Fault (State Act Memory) β
  | .ok value after => next value after
  | .error fault after => .error fault after

theorem bind_eq_andThen (m : Eval Act Memory α) (next : α → Eval Act Memory β)
    (state : State Act Memory) : (m >>= next) state = andThen next (m state) := by
  show EStateM.bind m next state = _
  unfold EStateM.bind
  cases m state <;> rfl

theorem untraced_andThen {next : α → Eval Act Memory β}
    (h : ∀ value, (next value).IgnoresTrace)
    (result : EStateM.Result Fault (State Act Memory) α) :
    untraced (andThen next result) = untraced (andThen next (untraced result)) := by
  cases result with
  | ok value after => exact h value after
  | error fault after => rfl

theorem untraced_leave (result : EStateM.Result Fault (State Act Memory) α) :
    untraced (leave result) = untraced (leave (untraced result)) := by
  cases result <;> rfl

namespace IgnoresTrace

/-! ## Computations that the trace makes no difference to -/

/-- From states that differ only in the trace come results that differ only in the trace. -/
theorem congr {m : Eval Act Memory α} (h : m.IgnoresTrace) {state other : State Act Memory}
    (hs : state.untraced = other.untraced) : untraced (m state) = untraced (m other) := by
  rw [h state, hs, ← h other]

theorem bind {m : Eval Act Memory α} {next : α → Eval Act Memory β} (hm : m.IgnoresTrace)
    (hnext : ∀ value, (next value).IgnoresTrace) : (m >>= next).IgnoresTrace := by
  intro state
  rw [bind_eq_andThen, bind_eq_andThen, untraced_andThen hnext, hm state,
    ← untraced_andThen hnext]

/-- What is looked up in the state must not be the trace. -/
theorem get_bind {next : State Act Memory → Eval Act Memory β}
    (hsame : ∀ state, next state.untraced = next state) (h : ∀ state, (next state).IgnoresTrace) :
    (get >>= next).IgnoresTrace := by
  intro state
  show untraced (next state state) = untraced (next state.untraced state.untraced)
  rw [hsame, h state state]

theorem record (event : TraceEvent Act) : (Eval.record event : Eval Act Memory Unit).IgnoresTrace :=
  fun _ => rfl

theorem nest {m : Eval Act Memory α} (hm : m.IgnoresTrace) : (Eval.nest m).IgnoresTrace := by
  intro state
  have henter : untraced (m state.enter) = untraced (m state.untraced.enter) := hm.congr rfl
  rw [nest_eq, nest_eq, untraced_leave, henter, ← untraced_leave]

end IgnoresTrace

end Eval

/-! ## Evaluations -/

variable {host : Host}

/-- The actions of the embedding program do not look at the trace. -/
def Host.IgnoresTrace (host : Host) : Prop :=
  ∀ action scope? args, (host.perform action scope? args).IgnoresTrace

/-- Where there are no actions but the built-in ones nothing is asked. -/
theorem Host.alone_ignoresTrace : Host.alone.IgnoresTrace := fun action => action.elim

theorem Eval.IgnoresTrace.compositional (h : host.IgnoresTrace) :
    Eval.Compositional (fun {α} (m : host.Eval α) => m.IgnoresTrace) where
  of_pure _ _ := rfl
  of_throw _ _ := rfl
  bind hm hnext := hm.bind hnext
  child _ _ := rfl
  register _ _ _ _ := rfl
  emit _ _ _ := rfl
  thrownInFiller _ := .record _
  thrownBy _ _ := .record _
  dispatch_bind _ _ _ _ hnext :=
    .get_bind (fun _ => rfl) fun _ => (Eval.IgnoresTrace.record _).bind fun _ => hnext _
  began_bind hnext :=
    .get_bind (fun _ => rfl) fun _ => (Eval.IgnoresTrace.record _).bind fun _ => hnext
  perform := h

variable [CallStack]

theorem evaluateWithin_ignoresTrace (h : host.IgnoresTrace) (maxDepth : Int) :
    ∀ (room calls : Nat) (program : Program) (scope : FrameId),
    (evaluateWithin maxDepth room calls program scope : host.Eval Output).IgnoresTrace
  | 0, calls, _, _ =>
    have hsteps := Eval.IgnoresTrace.compositional h
    hsteps.onStack calls (hsteps.refuse maxDepth)
  | room + 1, calls, program, scope => by
    have hsteps := Eval.IgnoresTrace.compositional h
    have hrun : (runCommands ⟨calls, evaluateWithin maxDepth room⟩ scope program .nothing
        : host.Eval Output).IgnoresTrace :=
      hsteps.runCommands (evaluateWithin_ignoresTrace h maxDepth room) scope program .nothing
    exact hsteps.onStack calls hrun.nest

/-- Evaluations never look at the trace, if the actions of the embedding program do not. -/
theorem evaluate_ignoresTrace (h : host.IgnoresTrace) (maxDepth : Int) (calls : Nat)
    (program : Program) (scope : FrameId) :
    (evaluate maxDepth calls program scope : host.Eval Output).IgnoresTrace :=
  .get_bind (fun _ => rfl) fun _ => evaluateWithin_ignoresTrace h maxDepth _ calls program scope

end Phrasebook
