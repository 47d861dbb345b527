import Phrasebook.Evaluation.Evaluator

/-! # Evaluations, step by step

What holds of every step of an evaluation, and of a computation as soon as it holds of its parts,
holds of what one level of nesting does if it holds of the programs nested in it.

* `Eval.Compositional` — the properties of computations that can be told in this way.
* `Eval.Compositional.gather`, `Eval.Compositional.execute`, `Eval.Compositional.runCommands` — one
  level of nesting.
* `Eval.Compositional.refuse`, `Eval.Compositional.onStack` — the ends of nesting: the limit of the
  depth, and that of the stack.
-/

namespace Phrasebook

variable {host : Host}

/-- A property that the steps of evaluations have, and sequences of computations if each of these
    has it. A step that looks something up in the state comes with what is done about it. -/
structure Eval.Compositional (P : {α : Type} → host.Eval α → Prop) : Prop where
  of_pure {α : Type} (value : α) : P (pure value)
  of_throw {α : Type} (fault : Fault) : P (throw fault : host.Eval α)
  bind {α β : Type} {m : host.Eval α} {next : α → host.Eval β} :
    P m → (∀ value, P (next value)) → P (m >>= next)
  child (scope : FrameId) : P (Eval.child scope)
  register (frame : FrameId) (key : Key) (value : Value) :
    P (Eval.register frame key (.stored value))
  emit (channel : Channel) (message : Text) : P (Eval.emit channel message)
  thrownInFiller (value : Value) : P (Eval.record (.thrownInFiller value))
  thrownBy (key : Key) (value : Value) : P (Eval.record (.thrownBy key value))
  dispatch_bind {α : Type} (scope : FrameId) (key : Key) (args : List Value)
    {next : Option (Entry host.Act) → host.Eval α} : (∀ found, P (next found)) →
    P (do
      let found := (← get).store.find? scope key
      Eval.record (.dispatched key args found)
      next found)
  began_bind {α : Type} {next : host.Eval α} : P next →
    P (do
      Eval.record (.began (← get).depth)
      next)
  perform (action : host.Act) (scope? : Option FrameId) (args : List Value) :
    P (host.perform action scope? args)

namespace Eval.Compositional

variable [CallStack] {P : {α : Type} → host.Eval α → Prop} {nested : Nested host}

/-! ## Built-in actions -/

theorem readProgram (h : Compositional P) (calls : Nat) (text : Text) :
    P (readProgram calls text) := by
  unfold Phrasebook.readProgram
  split
  · exact h.of_pure _
  · exact h.of_pure _
  · exact h.of_throw _

theorem bindName (h : Compositional P) (calls : Nat) (scope : FrameId) (value name : Value) :
    P (bindName calls scope value name) := by
  unfold Phrasebook.bindName
  split
  · exact h.of_pure _
  · refine h.bind (h.readProgram _ _) fun read => ?_
    cases read with
    | error e => exact h.of_pure _
    | ok program =>
      dsimp only
      split
      · exact h.of_pure _
      · exact h.bind (h.register scope _ value) fun _ => h.of_pure _

theorem runBranch (h : Compositional P)
    (hn : ∀ calls program scope, P (nested.evaluate calls program scope))
    (scope : FrameId) (condition branch : Value) :
    P (runBranch nested scope condition branch) := by
  unfold Phrasebook.runBranch
  split
  · exact h.of_pure _
  · split
    · exact h.of_pure _
    · refine h.bind (h.readProgram _ _) fun read => ?_
      cases read with
      | error e => exact h.of_pure _
      | ok program =>
        refine h.bind (h.child scope) fun frame => ?_
        exact h.bind (hn _ program frame) fun output => h.of_pure _

theorem performBuiltin (h : Compositional P)
    (hn : ∀ calls program scope, P (nested.evaluate calls program scope))
    (scope : FrameId) (action : Builtin) (args : List Value) :
    P (performBuiltin nested scope action args) := by
  unfold Phrasebook.performBuiltin
  split
  · exact h.runBranch hn scope _ _
  · exact h.bindName _ scope _ _
  · exact h.bind (h.emit _ _) fun _ => h.of_pure _
  · exact h.of_pure _
  all_goals exact h.of_throw _

/-! ## Commands and programs -/

theorem gather (h : Compositional P)
    (hn : ∀ calls program scope, P (nested.evaluate calls program scope))
    (scope : FrameId) : ∀ parts : List Part, P (gather nested scope parts)
  | [] => h.of_pure _
  | .word _ _ :: rest => h.bind (gather h hn scope rest) fun _ => h.of_pure _
  | .string _ _ :: rest => h.bind (gather h hn scope rest) fun _ => h.of_pure _
  | .filler content _ :: rest => by
    refine h.bind (h.child scope) fun frame => ?_
    refine h.bind (hn _ content frame) fun output => ?_
    cases output with
    | thrown value => exact h.of_pure _
    | returned value => exact h.bind (gather h hn scope rest) fun _ => h.of_pure _
    | lastValue value => exact h.bind (gather h hn scope rest) fun _ => h.of_pure _
  | .foreign _ :: _ => h.of_throw _

theorem apply (h : Compositional P)
    (hn : ∀ calls program scope, P (nested.evaluate calls program scope))
    (scope : FrameId) (key : Key) (args : List Value) (found : Option (Entry host.Act)) :
    P (apply nested scope key args found) := by
  unfold Phrasebook.apply
  split
  · exact h.of_pure _
  · exact h.of_pure _
  · next action =>
    have hperform : P (Phrasebook.perform nested scope action args) := by
      cases action with
      | builtin action => exact h.performBuiltin hn scope action args
      | host action => exact h.perform action _ args
    refine h.bind hperform fun output => ?_
    dsimp only
    split
    · exact h.bind (h.thrownBy key _) fun _ => h.of_pure _
    · exact h.of_pure _
  · exact h.of_throw _

theorem execute (h : Compositional P)
    (hn : ∀ calls program scope, P (nested.evaluate calls program scope))
    (scope : FrameId) (command : Command) : P (execute nested scope command) := by
  refine h.bind (h.gather hn scope command.parts) fun call => ?_
  cases call with
  | thrown value => exact h.bind (h.thrownInFiller value) fun _ => h.of_pure _
  | ready places args => exact h.dispatch_bind scope _ args (h.apply hn scope _ args)

theorem runCommands (h : Compositional P)
    (hn : ∀ calls program scope, P (nested.evaluate calls program scope)) (scope : FrameId) :
    ∀ (program : List Command) (last : Value), P (runCommands nested scope program last)
  | [], _ => h.of_pure _
  | command :: rest, _ => by
    refine h.began_bind (h.bind (h.execute hn scope command) fun output => ?_)
    cases output with
    | thrown value => exact h.of_pure _
    | returned value => exact runCommands h hn scope rest value
    | lastValue value => exact runCommands h hn scope rest value

omit [CallStack] in
theorem refuse (h : Compositional P) (maxDepth : Int) : P (refuse maxDepth) := by
  unfold Phrasebook.refuse
  split
  · exact h.of_pure _
  · exact h.of_throw _

theorem onStack (h : Compositional P) {α : Type} {m : host.Eval α} (calls : Nat) (hm : P m) :
    P (onStack calls m) := by
  unfold Phrasebook.onStack
  split
  · exact hm
  · exact h.of_throw _

end Eval.Compositional

end Phrasebook
