import Phrasebook.Evaluation.Evaluator

/-! # Comparing two evaluations

A logic of two evaluations that go on side by side, for statements about what a change of the
program, the scope or the state does to an evaluation. A single evaluation may be compared with
itself: then it is a logic of invariants that know the scope and the depth.

* `Comparison` — a relation between the two states that all steps of evaluations keep. It knows the
  two scopes, and the value that has been thrown, if there is one.
* `Comparison.Relates` — the triples: related states lead to related results in related states.
* `Comparison.Relates.bind`, `Comparison.Relates.dispatch_bind`, … — one rule for each way to build
  a computation.

Nothing catches a thrown value. Once there is one, the relation may promise less for the states, or
promise something of the value.
-/

namespace Phrasebook

variable {host : Host}

/-! ## What has been thrown -/

def Output.thrown? : Output → Option Value
  | thrown value => some value
  | returned _ | lastValue _ => none

theorem Output.isThrown_eq (output : Output) : output.isThrown = output.thrown?.isSome := by
  cases output <;> rfl

def Call.thrown? : Call → Option Value
  | ready _ _ => none
  | thrown value => some value

/-- What is thrown for a call whose key means what was found: nothing yet, if anything was. -/
def missing? {Act : Type} (key : Key) : Option (Entry Act) → Option Value
  | none => some (.error ("name not found: ".toList ++ key.print))
  | some _ => none

def TraceEvent.isCall {Act : Type} : TraceEvent Act → Bool
  | dispatched _ _ _ => true
  | opened _ | closed | began _ | thrownInFiller _ | thrownBy _ _ => false

/-- The result of a program once the depth is lowered again. -/
def Eval.leave {Act Memory α : Type} :
    EStateM.Result Fault (State Act Memory) α → EStateM.Result Fault (State Act Memory) α
  | .ok value state => .ok value state.leave
  | .error fault state => .error fault state.leave

theorem Eval.leave_eq_ok {Act Memory α : Type}
    {result : EStateM.Result Fault (State Act Memory) α} {value : α} {after : State Act Memory}
    (h : Eval.leave result = .ok value after) :
    ∃ last, result = .ok value last ∧ after = last.leave := by
  cases result with
  | ok value last =>
    cases h
    exact ⟨last, rfl, rfl⟩
  | error fault last => cases h

theorem Eval.nest_eq {Act Memory α : Type} (m : Eval Act Memory α) (state : State Act Memory) :
    Eval.nest m state = Eval.leave (m state.enter) := by
  unfold Eval.nest
  cases m state.enter <;> rfl

/-! ## Comparisons -/

/-- A relation between the states of two evaluations that every step of both keeps. A place stands
    for the two scopes, and for what else is known while programs are evaluated in them. -/
structure Comparison (host : Host) where
  Place : Type
  left : Place → FrameId
  right : Place → FrameId
  /-- The states are related at a place, after what has been thrown. -/
  Holds : Option Value → Place → host.State → host.State → Prop
  find_eq {place state state'} (key : Key) : Holds none place state state' →
    state.store.find? (left place) key = state'.store.find? (right place) key
  /-- No action of the embedding program is ever found. -/
  found_ne {place state state'} (key : Key) (action : host.Act) : Holds none place state state' →
    state.store.find? (left place) key ≠ some (.action (.host action))
  /-- Both depths may change: what is told of them is told for all relations. -/
  deepen {thrown place state state'} (depth : Nat) : Holds thrown place state state' →
    Holds thrown place { state with depth } { state' with depth }
  record {thrown place state state'} {event : TraceEvent host.Act} : event.isCall = false →
    Holds thrown place state state' →
    Holds thrown place (state.record event) (state'.record event)
  dispatch {place state state'} (key : Key) (args : List Value) : Holds none place state state' →
    Holds (missing? key (state.store.find? (left place) key)) place
      (state.record (.dispatched key args (state.store.find? (left place) key)))
      (state'.record (.dispatched key args (state.store.find? (left place) key)))
  throws {place state state'} (value : Value) : Holds none place state state' →
    Holds (some value) place state state'
  emit {place state state'} (channel : Channel) (message : Text) :
    Holds none place state state' →
    Holds none place (state.emit channel message) (state'.emit channel message)
  /-- In new frames inside the scopes there is a place of their own, from which one comes back. -/
  child {place state state'} : Holds none place state state' →
    ∃ inner, left inner = state.store.size ∧ right inner = state'.store.size
      ∧ Holds none inner { state with store := (state.store.child (left place)).2 }
        { state' with store := (state'.store.child (right place)).2 }
      ∧ ∀ thrown after after', Holds thrown inner after after' → Holds thrown place after after'
  bind {place state state'} {key : Key} (value : Value) : key.arity = 0 →
    Holds none place state state' →
    Holds none place { state with store := state.store.bind (left place) key (.stored value) }
      { state' with store := state'.store.bind (right place) key (.stored value) }

namespace Comparison

variable {C : Comparison host} {α β : Type}

/-- The states are related, and of the given depth. -/
structure At (C : Comparison host) (thrown : Option Value) (place : C.Place) (depth : Nat)
    (state state' : host.State) : Prop where
  holds : C.Holds thrown place state state'
  depth_left : state.depth = depth
  depth_right : state'.depth = depth

theorem At.enter {place : C.Place} {depth : Nat} {state state' : host.State}
    (h : C.At none place depth state state') :
    C.At none place (depth + 1) state.enter state'.enter := by
  obtain ⟨hs, hl, hr⟩ := h
  refine ⟨?_, congrArg (· + 1) hl, congrArg (· + 1) hr⟩
  unfold State.enter
  rw [hl, hr]
  exact C.record rfl (C.deepen (depth + 1) hs)

theorem At.leave {thrown : Option Value} {place : C.Place} {depth : Nat}
    {state state' : host.State} (h : C.At thrown place (depth + 1) state state') :
    C.At thrown place depth state.leave state'.leave := by
  obtain ⟨hs, hl, hr⟩ := h
  refine ⟨?_, congrArg (· - 1) hl, congrArg (· - 1) hr⟩
  unfold State.leave
  rw [hl, hr]
  exact C.record rfl (C.deepen depth hs)

/-- Both results are values, and `Post` says what has been thrown and how they agree, or both are
    the same fault, from before anything was thrown. The states they come with are related. -/
def Results (C : Comparison host) (place : C.Place) (depth : Nat)
    (Post : Option Value → α → α → Prop) :
    EStateM.Result Fault host.State α → EStateM.Result Fault host.State α → Prop
  | .ok value after, .ok value' after' =>
    ∃ thrown, Post thrown value value' ∧ C.At thrown place depth after after'
  | .error fault after, .error fault' after' => fault = fault' ∧ C.At none place depth after after'
  | .ok _ _, .error _ _ | .error _ _, .ok _ _ => False

/-- Results that agree at a place agree at every place one comes back to from there. -/
theorem Results.back {place inner : C.Place} {depth : Nat} {Post : Option Value → α → α → Prop}
    {result result' : EStateM.Result Fault host.State α}
    (h : C.Results inner depth Post result result')
    (hback : ∀ thrown after after', C.Holds thrown inner after after' →
      C.Holds thrown place after after') : C.Results place depth Post result result' := by
  match result, result', h with
  | .ok value after, .ok value' after', ⟨thrown, hpost, hs, hl, hr⟩ =>
    exact ⟨thrown, hpost, hback _ _ _ hs, hl, hr⟩
  | .error fault after, .error fault' after', ⟨hfault, hs, hl, hr⟩ =>
    exact ⟨hfault, hback _ _ _ hs, hl, hr⟩

theorem Results.leave {place : C.Place} {depth : Nat} {Post : Option Value → α → α → Prop}
    {result result' : EStateM.Result Fault host.State α}
    (h : C.Results place (depth + 1) Post result result') :
    C.Results place depth Post (Eval.leave result) (Eval.leave result') := by
  match result, result', h with
  | .ok value after, .ok value' after', ⟨thrown, hpost, hafter⟩ =>
    exact ⟨thrown, hpost, hafter.leave⟩
  | .error fault after, .error fault' after', ⟨hfault, hafter⟩ => exact ⟨hfault, hafter.leave⟩

/-- From related states the computations come to results that agree. -/
def Relates (C : Comparison host) (thrown : Option Value) (place : C.Place) (depth : Nat)
    (m m' : host.Eval α) (Post : Option Value → α → α → Prop) : Prop :=
  ∀ state state', C.At thrown place depth state state' →
    C.Results place depth Post (m state) (m' state')

namespace Relates

variable {thrown : Option Value} {place : C.Place} {depth : Nat}

theorem of_pure {value value' : α} {Post : Option Value → α → α → Prop}
    (h : Post thrown value value') :
    C.Relates thrown place depth (pure value) (pure value') Post :=
  fun _ _ hs => ⟨thrown, h, hs⟩

theorem of_throw {fault : Fault} {Post : Option Value → α → α → Prop} :
    C.Relates none place depth (throw fault) (throw fault) Post :=
  fun _ _ hs => ⟨rfl, hs⟩

theorem bind {m m' : host.Eval α} {next next' : α → host.Eval β}
    {Mid : Option Value → α → α → Prop} {Post : Option Value → β → β → Prop}
    (hm : C.Relates thrown place depth m m' Mid)
    (hnext : ∀ thrown value value', Mid thrown value value' →
      C.Relates thrown place depth (next value) (next' value') Post) :
    C.Relates thrown place depth (m >>= next) (m' >>= next') Post := by
  intro state state' hs
  have hrun := hm state state' hs
  show C.Results place depth Post (EStateM.bind m next state) (EStateM.bind m' next' state')
  unfold EStateM.bind
  generalize m state = result at hrun ⊢
  generalize m' state' = result' at hrun ⊢
  match result, result', hrun with
  | .ok value after, .ok value' after', ⟨thrown, hmid, hafter⟩ =>
    exact hnext thrown value value' hmid after after' hafter
  | .error fault after, .error fault' after', hfault => exact hfault

/-- What is looked up in the states may be taken to be what related states hold. -/
theorem get_bind {next next' : host.State → host.Eval β} {Post : Option Value → β → β → Prop}
    (h : ∀ state state', C.At thrown place depth state state' →
      C.Relates thrown place depth (next state) (next' state') Post) :
    C.Relates thrown place depth (get >>= next) (get >>= next') Post :=
  fun state state' hs => h state state' hs state state' hs

/-! ## Operations -/

theorem record_bind {event : TraceEvent host.Act} {next next' : Unit → host.Eval β}
    {Post : Option Value → β → β → Prop} (he : event.isCall = false)
    (h : C.Relates thrown place depth (next ()) (next' ()) Post) :
    C.Relates thrown place depth (Eval.record event >>= next) (Eval.record event >>= next') Post :=
  fun _ _ hs => h _ _ ⟨C.record he hs.holds, hs.depth_left, hs.depth_right⟩

theorem emit_bind {channel : Channel} {message : Text} {next next' : Unit → host.Eval β}
    {Post : Option Value → β → β → Prop}
    (h : C.Relates none place depth (next ()) (next' ()) Post) :
    C.Relates none place depth (Eval.emit channel message >>= next)
      (Eval.emit channel message >>= next') Post :=
  fun _ _ hs => h _ _ ⟨C.emit channel message hs.holds, hs.depth_left, hs.depth_right⟩

theorem throws {value : Value} {m m' : host.Eval α} {Post : Option Value → α → α → Prop}
    (h : C.Relates (some value) place depth m m' Post) : C.Relates none place depth m m' Post :=
  fun _ _ hs => h _ _ ⟨C.throws value hs.holds, hs.depth_left, hs.depth_right⟩

/-- Both sides look a key up, find the same, and record the call. -/
theorem dispatch_bind {key : Key} {args : List Value}
    {next next' : Option (Entry host.Act) → host.Eval β} {Post : Option Value → β → β → Prop}
    (h : ∀ found, (∀ action, found ≠ some (.action (.host action))) →
      C.Relates (missing? key found) place depth (next found) (next' found) Post) :
    C.Relates none place depth
      (do
        let found := (← get).store.find? (C.left place) key
        Eval.record (.dispatched key args found)
        next found)
      (do
        let found := (← get).store.find? (C.right place) key
        Eval.record (.dispatched key args found)
        next' found) Post := by
  intro state state' hs
  let found := state.store.find? (C.left place) key
  have hfound : state'.store.find? (C.right place) key = found := (C.find_eq key hs.holds).symm
  show C.Results place depth Post
    (next found (state.record (.dispatched key args found)))
    (next' (state'.store.find? (C.right place) key)
      (state'.record (.dispatched key args (state'.store.find? (C.right place) key))))
  rw [hfound]
  exact h found (fun action => C.found_ne key action hs.holds) _ _
    ⟨C.dispatch key args hs.holds, hs.depth_left, hs.depth_right⟩

/-- Both sides do something in a new frame inside their scope. -/
theorem inChild {m m' : FrameId → host.Eval α} {Post : Option Value → α → α → Prop}
    (h : ∀ inner, C.Relates none inner depth (m (C.left inner)) (m' (C.right inner)) Post) :
    C.Relates none place depth (Eval.child (C.left place) >>= m)
      (Eval.child (C.right place) >>= m') Post := by
  intro state state' hs
  obtain ⟨inner, hl, hr, hinner, hback⟩ := C.child hs.holds
  have hrun := h inner _ _ ⟨hinner, hs.depth_left, hs.depth_right⟩
  rw [hl, hr] at hrun
  show C.Results place depth Post
    (m state.store.size { state with store := (state.store.child (C.left place)).2 })
    (m' state'.store.size { state' with store := (state'.store.child (C.right place)).2 })
  exact hrun.back hback

/-- What both sides do after that, they do at the old place. -/
theorem inChild_bind {m m' : FrameId → host.Eval α} {next next' : α → host.Eval β}
    {Mid : Option Value → α → α → Prop} {Post : Option Value → β → β → Prop}
    (hm : ∀ inner, C.Relates none inner depth (m (C.left inner)) (m' (C.right inner)) Mid)
    (hnext : ∀ thrown value value', Mid thrown value value' →
      C.Relates thrown place depth (next value) (next' value') Post) :
    C.Relates none place depth (Eval.child (C.left place) >>= fun frame => m frame >>= next)
      (Eval.child (C.right place) >>= fun frame => m' frame >>= next') Post := by
  have hboth := (inChild hm).bind hnext
  rwa [bind_assoc, bind_assoc] at hboth

/-- Both sides bind a value under a name without gaps. -/
theorem register_bind {key : Key} {value : Value} {next next' : Unit → host.Eval β}
    {Post : Option Value → β → β → Prop} (hkey : key.arity = 0)
    (h : C.Relates none place depth (next ()) (next' ()) Post) :
    C.Relates none place depth (Eval.register (C.left place) key (.stored value) >>= next)
      (Eval.register (C.right place) key (.stored value) >>= next') Post :=
  fun _ _ hs => h _ _ ⟨C.bind value hkey hs.holds, hs.depth_left, hs.depth_right⟩

theorem nest {m m' : host.Eval α} {Post : Option Value → α → α → Prop}
    (h : C.Relates none place (depth + 1) m m' Post) :
    C.Relates none place depth (Eval.nest m) (Eval.nest m') Post := by
  intro state state' hs
  rw [Eval.nest_eq, Eval.nest_eq]
  exact (h _ _ hs.enter).leave

theorem onStack [CallStack] {m m' : host.Eval α} {Post : Option Value → α → α → Prop} (calls : Nat)
    (h : C.Relates none place depth m m' Post) :
    C.Relates none place depth (onStack calls m) (onStack calls m') Post := by
  unfold Phrasebook.onStack
  split
  · exact h
  · exact .of_throw

end Relates

end Comparison

end Phrasebook
