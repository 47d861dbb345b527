import Phrasebook.Proofs.Evaluation.Agreement
import Phrasebook.Proofs.Scope.Persistence
import Phrasebook.Session.Basic

/-! # Scopes are seen through lookup

An evaluation knows its scope only by what keys mean in it. In two scopes that mean the same,
however their frames are laid out, a program is evaluated alike, and afterwards the scopes mean the
same again.

* `Outlook`, `Outlook.Sees` — a scope with the frames there were when its evaluation began. They are
  kept, but for the innermost frame of the scope.
* `Comparison.lookup` — evaluations in two scopes with the same meanings.
* `State.Indistinct`, `Eval.Indistinct` — the states and the results that this is about.
* `evaluate_indistinct` — programs, in two scopes, and in a new frame inside a scope.
-/

namespace Phrasebook

variable {host : Host}

/-! ## Scopes that are evaluated in -/

/-- A scope, and the frames there were when evaluations in it began. -/
structure Outlook (Act : Type) where
  scope : FrameId
  base : Store Act

namespace Outlook

variable {Act : Type} {outlook : Outlook Act} {store after : Store Act}

/-- So far, nothing but the innermost frame of the scope has changed. -/
structure Sees (outlook : Outlook Act) (store : Store Act) : Prop where
  native : store.Native outlook.scope
  keeps : outlook.base.Keeps (· ≠ outlook.scope) store

/-- The outlook of an evaluation that begins in a scope. -/
def first (store : Store Act) (scope : FrameId) : Outlook Act := ⟨scope, store⟩

/-- The outlook from a new frame inside the scope. -/
def inner (outlook : Outlook Act) (store : Store Act) : Outlook Act :=
  first (store.child outlook.scope).2 store.size

theorem Sees.first {scope : FrameId} (h : store.Native scope) : (first store scope).Sees store :=
  ⟨h, .refl store _⟩

theorem Sees.inner (h : outlook.Sees store) :
    (outlook.inner store).Sees (store.child outlook.scope).2 :=
  .first h.native.child

/-- Seen from outside, evaluations in a new frame change nothing. -/
theorem Sees.keepsAll_of_inner (h : (outlook.inner store).Sees after) : store.KeepsAll after :=
  (Store.Keeps.child store outlook.scope).trans h.keeps fun _ hframe _ => Nat.ne_of_lt hframe

theorem Sees.back (h : outlook.Sees store) (hi : (outlook.inner store).Sees after) :
    outlook.Sees after :=
  ⟨h.native.of_keepsAll hi.keepsAll_of_inner,
    h.keeps.trans hi.keepsAll_of_inner fun _ _ _ => trivial⟩

theorem Sees.bind (h : outlook.Sees store) (key : Key) (value : Value) :
    outlook.Sees (store.bind outlook.scope key (.stored value)) :=
  ⟨h.native.bind key value,
    h.keeps.trans (.bind h.native.scope_lt key (.stored value)) fun _ _ hne => hne⟩

end Outlook

/-! ## Two evaluations -/

/-- The states of evaluations in two scopes in which every key means the same. -/
structure State.SeenAlike (left right : Outlook host.Act) (state state' : host.State) : Prop where
  sees_left : left.Sees state.store
  sees_right : right.Sees state'.store
  find?_eq : ∀ key, state.store.find? left.scope key = state'.store.find? right.scope key
  effects_eq : state.effects = state'.effects

namespace State.SeenAlike

variable {left right : Outlook host.Act} {state state' after after' : host.State}

theorem emit (h : SeenAlike left right state state') (channel : Channel) (message : Text) :
    SeenAlike left right (state.emit channel message) (state'.emit channel message) :=
  ⟨h.sees_left, h.sees_right, h.find?_eq, congrArg (·.push ⟨channel, message⟩) h.effects_eq⟩

theorem inner (h : SeenAlike left right state state') :
    SeenAlike (left.inner state.store) (right.inner state'.store)
      { state with store := (state.store.child left.scope).2 }
      { state' with store := (state'.store.child right.scope).2 } := by
  refine ⟨h.sees_left.inner, h.sees_right.inner, fun key => ?_, h.effects_eq⟩
  calc (state.store.child left.scope).2.find? state.store.size key
      = state.store.find? left.scope key := Store.find?_child _ _ _
    _ = state'.store.find? right.scope key := h.find?_eq key
    _ = (state'.store.child right.scope).2.find? state'.store.size key :=
      (Store.find?_child _ _ _).symm

theorem back (h : SeenAlike left right state state')
    (hi : SeenAlike (left.inner state.store) (right.inner state'.store) after after') :
    SeenAlike left right after after' := by
  refine ⟨h.sees_left.back hi.sees_left, h.sees_right.back hi.sees_right, fun key => ?_,
    hi.effects_eq⟩
  -- What was bound in the new frames is not seen from outside.
  rw [h.sees_left.native.find?_eq hi.sees_left.keepsAll_of_inner,
    h.sees_right.native.find?_eq hi.sees_right.keepsAll_of_inner, h.find?_eq]

theorem bind (h : SeenAlike left right state state') (key : Key) (value : Value) :
    SeenAlike left right
      { state with store := state.store.bind left.scope key (.stored value) }
      { state' with store := state'.store.bind right.scope key (.stored value) } := by
  refine ⟨h.sees_left.bind key value, h.sees_right.bind key value, fun other => ?_, h.effects_eq⟩
  rw [Store.find?_bind h.sees_left.native.scope_lt, Store.find?_bind h.sees_right.native.scope_lt,
    h.find?_eq]

end State.SeenAlike

/-- Evaluations in scopes with the same meanings. -/
def Comparison.lookup (host : Host) : Comparison host where
  Place := Outlook host.Act × Outlook host.Act
  left place := place.1.scope
  right place := place.2.scope
  Holds _ place state state' := State.SeenAlike place.1 place.2 state state'
  find_eq key h := h.find?_eq key
  found_ne key action h := h.sees_left.native.find?_ne key action
  deepen _ h := ⟨h.sees_left, h.sees_right, h.find?_eq, h.effects_eq⟩
  record _ h := ⟨h.sees_left, h.sees_right, h.find?_eq, h.effects_eq⟩
  dispatch _ _ h := ⟨h.sees_left, h.sees_right, h.find?_eq, h.effects_eq⟩
  throws _ h := h
  emit channel message h := h.emit channel message
  child {place state state'} h := by
    refine ⟨(place.1.inner state.store, place.2.inner state'.store), rfl, rfl, h.inner, ?_⟩
    exact fun _ _ _ hi => h.back hi
  bind value _ h := h.bind _ value

/-! ## Results -/

/-- Seen through lookup, the states are one: the evaluators have written the same and are as deep,
    and every key means the same in the two scopes. -/
structure State.Indistinct (scope scope' : FrameId) (state state' : host.State) : Prop where
  find?_eq : ∀ key, state.store.find? scope key = state'.store.find? scope' key
  effects_eq : state.effects = state'.effects
  depth_eq : state.depth = state'.depth

/-- Both are the same output, or both are the same fault, and the states cannot be told apart. -/
def Eval.Indistinct {α : Type} (scope scope' : FrameId) :
    EStateM.Result Fault host.State α → EStateM.Result Fault host.State α → Prop
  | .ok output after, .ok output' after' =>
    output = output' ∧ State.Indistinct scope scope' after after'
  | .error fault after, .error fault' after' =>
    fault = fault' ∧ State.Indistinct scope scope' after after'
  | .ok _ _, .error _ _ | .error _ _, .ok _ _ => False

theorem State.Indistinct.at_lookup {scope scope' : FrameId} {state state' : host.State}
    (h : State.Indistinct scope scope' state state') (hs : state.store.Native scope)
    (hs' : state'.store.Native scope') :
    (Comparison.lookup host).At none (.first state.store scope, .first state'.store scope')
      state.depth state state' :=
  ⟨⟨.first hs, .first hs', h.find?_eq, h.effects_eq⟩, rfl, h.depth_eq.symm⟩

theorem Comparison.Results.indistinct {left right : Outlook host.Act} {depth : Nat}
    {result result' : EStateM.Result Fault host.State Output}
    (h : (Comparison.lookup host).Results (left, right) depth Output.Agree result result') :
    Eval.Indistinct left.scope right.scope result result' := by
  match result, result', h with
  | .ok output after, .ok _ after', ⟨_, ⟨rfl, _⟩, hseen, hl, hr⟩ =>
    exact ⟨rfl, hseen.find?_eq, hseen.effects_eq, hl.trans hr.symm⟩
  | .error fault after, .error _ after', ⟨rfl, hseen, hl, hr⟩ =>
    exact ⟨rfl, hseen.find?_eq, hseen.effects_eq, hl.trans hr.symm⟩

section

variable [CallStack]

/-- Where every key means the same in two scopes without actions of an embedding program, a program
    is evaluated alike in both: it gives the same output or ends in the same fault, with the same
    effects, at the same depth, and every key means the same in both again. So a new frame inside a
    scope makes no difference to a program, and none to what keys mean there afterwards. -/
theorem evaluate_indistinct {scope scope' : FrameId} {state state' : host.State}
    (hs : state.store.Native scope) (hs' : state'.store.Native scope')
    (h : State.Indistinct scope scope' state state') (maxDepth : Int) (calls : Nat)
    (program : Program) :
    Eval.Indistinct scope scope' (evaluate maxDepth calls program scope state)
        (evaluate maxDepth calls program scope' state')
      ∧ Eval.Indistinct state.store.size scope
        (evaluate maxDepth calls program state.store.size
          { state with store := (state.store.child scope).2 })
        (evaluate maxDepth calls program scope state) := by
  have heval : ∀ {scope scope' : FrameId} {state state' : host.State},
      state.store.Native scope → state'.store.Native scope' →
      State.Indistinct scope scope' state state' →
      Eval.Indistinct scope scope' (evaluate maxDepth calls program scope state)
        (evaluate maxDepth calls program scope' state') := by
    intro scope scope' state state' hs hs' h
    exact (evaluate_agrees (.lookup host) maxDepth calls calls (.refl program) _ _ _ _
      (h.at_lookup hs hs')).indistinct
  refine ⟨heval hs hs' h, ?_⟩
  have hchild : State.Indistinct state.store.size scope
      { state with store := (state.store.child scope).2 } state :=
    ⟨Store.find?_child state.store scope, rfl, rfl⟩
  exact heval hs.child hs hchild

end

open StandardStack

/-- A name with a meaning in each of two frames, and the nearer meaning alone in one frame. The
    program gives the name two more, in a branch and outside. -/
theorem evaluate_indistinct_of_shadowing :
    let builtins : Store Empty := (bindActions Store.empty.root.2 0 builtinActions).1
    let outer := builtins.bind 0 (.ofWord ['x']) (.stored (.string ['1']))
    let nested := (outer.child 0).2.bind 1 (.ofWord ['x']) (.stored (.string ['2']))
    let merged := builtins.bind 0 (.ofWord ['x']) (.stored (.string ['2']))
    let program := (parseProgram
      "if (x), then {name {3} as {x}}; print (x); name {4} as {x}; throw (x)".toList).toOption.getD []
    let state : Host.alone.State := { State.initial () with store := nested }
    let state' : Host.alone.State := { State.initial () with store := merged }
    nested.chain 1 = [1, 0] ∧ merged.chain 0 = [0]
      ∧ Eval.Indistinct 1 0 (evaluate 10 0 program 1 state) (evaluate 10 0 program 0 state') := by
  intro builtins outer nested merged program state state'
  have hsize : builtins.size = 1 := by decide +kernel
  have houter : outer.size = 1 := by decide +kernel
  have hs : nested.Native 1 := ⟨by decide +kernel, fun _ _ _ action => action.elim⟩
  have hs' : merged.Native 0 := ⟨by decide +kernel, fun _ _ _ action => action.elim⟩
  have hfind : ∀ key, nested.find? 1 key = merged.find? 0 key := by
    intro key
    have hchild := Store.find?_child outer 0 key
    rw [houter] at hchild
    rw [Store.find?_bind (by rw [Store.size_child, houter]; exact Nat.one_lt_two), hchild,
      Store.find?_bind (hsize ▸ Nat.one_pos), Store.find?_bind (hsize ▸ Nat.one_pos)]
    split <;> rfl
  have halike : State.Indistinct 1 0 state state' := ⟨hfind, rfl, rfl⟩
  exact ⟨by decide +kernel, by decide +kernel, (evaluate_indistinct hs hs' halike 10 0 program).1⟩

end Phrasebook
