import Phrasebook.Evaluation.Evaluator

/-! # What computations ensure

A logic for computations on the state, of triples with an invariant: whatever a computation does,
the invariant is kept, its value has a property, and so has its fault.

* `Fault.HidesLimit` — the fault that may come of the limit of the depth.
* `Eval.Ensures` — the triples.
* `Eval.reached` — the state that a computation has come to.
* `Eval.Ensures.bind`, `Eval.Ensures.get_bind`, … — one rule for each way to build a computation.

The invariant is any property of states, so that each rule for an operation asks whether the
operation keeps it.
-/

namespace Phrasebook

/-- The fault stands for the error that tells of the limit of the depth, as this has too many digits
    to be written. -/
def Fault.HidesLimit (maxDepth : Int) (fault : Fault) : Prop :=
  fault = .unwritable maxDepth ∧ ¬ Text.Writable maxDepth

namespace Eval

variable {Act Memory α β : Type}

/-- From every state with `Inv` the computation comes to a state with `Inv`. If it gives a value,
    the value has `Post`; if it ends in a fault, the fault has `Fails`. -/
def Ensures (Inv : State Act Memory → Prop) (Fails : Fault → Prop) (m : Eval Act Memory α)
    (Post : α → Prop) : Prop :=
  ∀ state, Inv state →
    match m state with
    | .ok value after => Post value ∧ Inv after
    | .error fault after => Fails fault ∧ Inv after

/-- The state that a computation has come to, however it ended. -/
def reached : EStateM.Result Fault (State Act Memory) α → State Act Memory
  | .ok _ after | .error _ after => after

variable {Inv : State Act Memory → Prop} {Fails : Fault → Prop}

namespace Ensures

theorem of_pure {value : α} {Post : α → Prop} (h : Post value) :
    Ensures Inv Fails (pure value) Post :=
  fun _ hs => ⟨h, hs⟩

theorem of_throw {fault : Fault} {Post : α → Prop} (h : Fails fault) :
    Ensures Inv Fails (throw fault) Post :=
  fun _ hs => ⟨h, hs⟩

theorem bind {m : Eval Act Memory α} {next : α → Eval Act Memory β} {Mid : α → Prop}
    {Post : β → Prop} (hm : Ensures Inv Fails m Mid)
    (hnext : ∀ value, Mid value → Ensures Inv Fails (next value) Post) :
    Ensures Inv Fails (m >>= next) Post := by
  intro state hs
  have hrun := hm state hs
  change match EStateM.bind m next state with
    | .ok value after => _
    | .error fault after => _
  unfold EStateM.bind
  cases hr : m state with
  | ok value after =>
    rw [hr] at hrun
    exact hnext value hrun.1 after hrun.2
  | error fault after =>
    rw [hr] at hrun
    exact hrun

/-- What is looked up in the state may be taken to be what a state with the invariant holds. -/
theorem get_bind {next : State Act Memory → Eval Act Memory β} {Post : β → Prop}
    (h : ∀ state, Inv state → Ensures Inv Fails (next state) Post) :
    Ensures Inv Fails (get >>= next) Post :=
  fun state hs => h state hs state hs

theorem of_modify {update : State Act Memory → State Act Memory} {Post : Unit → Prop}
    (h : ∀ state, Inv state → Inv (update state)) (hp : Post ()) :
    Ensures Inv Fails (modify update) Post :=
  fun state hs => ⟨hp, h state hs⟩

/-- Where nothing is asked of values and faults, only the state that is reached counts. -/
theorem of_reached {m : Eval Act Memory α} (h : ∀ state, Inv state → Inv (reached (m state))) :
    Ensures Inv (fun _ => True) m fun _ => True := by
  intro state hs
  have hafter := h state hs
  cases hm : m state with
  | ok value after =>
    rw [hm] at hafter
    exact ⟨trivial, hafter⟩
  | error fault after =>
    rw [hm] at hafter
    exact ⟨trivial, hafter⟩

/-- What is known of the value whatever the state was is known of it beside the rest. -/
theorem and {m : Eval Act Memory α} {Post Also : α → Prop} (h : Ensures Inv Fails m Post)
    (ha : Ensures (fun _ => True) (fun _ => True) m Also) :
    Ensures Inv Fails m fun value => Post value ∧ Also value := by
  intro state hs
  have hrun := h state hs
  have hvalue := ha state trivial
  cases hm : m state with
  | ok value after =>
    rw [hm] at hrun hvalue
    exact ⟨⟨hrun.1, hvalue.1⟩, hrun.2⟩
  | error fault after =>
    rw [hm] at hrun
    exact hrun

theorem reached {m : Eval Act Memory α} {Post : α → Prop} (h : Ensures Inv Fails m Post)
    {state : State Act Memory} (hs : Inv state) : Inv (Eval.reached (m state)) := by
  have hrun := h state hs
  cases hm : m state with
  | ok value after =>
    rw [hm] at hrun
    exact hrun.2
  | error fault after =>
    rw [hm] at hrun
    exact hrun.2

/-! ## Operations -/

theorem record {event : TraceEvent Act} (h : ∀ state, Inv state → Inv (state.record event)) :
    Ensures Inv Fails (Eval.record event) fun _ => True :=
  of_modify h trivial

theorem emit {channel : Channel} {message : Text}
    (h : ∀ state, Inv state → Inv (state.emit channel message)) :
    Ensures Inv Fails (Eval.emit channel message) fun _ => True :=
  of_modify h trivial

theorem child {scope : FrameId}
    (h : ∀ state, Inv state → Inv { state with store := (state.store.child scope).2 }) :
    Ensures Inv Fails (Eval.child scope) fun _ => True :=
  fun state hs => ⟨trivial, h state hs⟩

/-- A stored value may always be registered. -/
theorem register_stored {frame : FrameId} {key : Key} {value : Value}
    (h : ∀ state, Inv state →
      Inv { state with store := state.store.bind frame key (.stored value) }) :
    Ensures Inv Fails (Eval.register frame key (.stored value)) fun _ => True :=
  fun state hs => ⟨trivial, h state hs⟩

/-- One level further in another invariant may hold. -/
theorem nest {Inner : State Act Memory → Prop} {m : Eval Act Memory α} {Post : α → Prop}
    (hm : Ensures Inner Fails m Post) (henter : ∀ state, Inv state → Inner state.enter)
    (hleave : ∀ state, Inner state → Inv state.leave) : Ensures Inv Fails (Eval.nest m) Post := by
  intro state hs
  have hrun := hm state.enter (henter state hs)
  unfold Eval.nest
  cases hr : m state.enter with
  | ok value after =>
    rw [hr] at hrun
    exact ⟨hrun.1, hleave after hrun.2⟩
  | error fault after =>
    rw [hr] at hrun
    exact ⟨hrun.1, hleave after hrun.2⟩

/-! ## Limits -/

variable {host : Host} {Inv : host.State → Prop}

/-- At the limit of the depth nothing is done. -/
theorem refuse {maxDepth : Int} {Post : Output → Prop}
    (hfault : ¬ Text.Writable maxDepth → Fails (.unwritable maxDepth))
    (hpost : Post (.error (depthMessage maxDepth))) :
    Ensures Inv Fails (refuse maxDepth) Post := by
  unfold Phrasebook.refuse
  split
  · exact .of_pure hpost
  · next hwritable => exact .of_throw (hfault hwritable)

/-- A stack without room for a call is a fault. -/
theorem onStack [CallStack] {m : host.Eval α} {Post : α → Prop} (hfault : Fails .tooDeep)
    (calls : Nat) (hm : Ensures Inv Fails m Post) :
    Ensures Inv Fails (onStack calls m) Post := by
  unfold Phrasebook.onStack
  split
  · exact hm
  · exact .of_throw hfault

end Ensures

end Eval

end Phrasebook
