import Phrasebook.Evaluation.Evaluator
import Phrasebook.Proofs.Tree.Alike

/-! # Programs that are alike do the same

Evaluations look words up in lower case and never look at positions, so programs that are alike are
evaluated to the very same computation, whatever frames and actions there are.

* `Call.lower`, `answer` — a call as its key has it, and what a command does with it.
* `gather_alike`, `execute_alike`, `runCommands_alike` — one level of nesting.
* `evaluate_alike` — programs, by induction on the levels that are left.
-/

namespace Phrasebook

variable {host : Host}

/-! ## Calls in lower case -/

def Call.lower : Call → Call
  | ready places args => ready (places.map KeyPart.lower) args
  | thrown value => thrown value

theorem Call.lower_withWord (call : Call) (text : Text) :
    (call.withWord text).lower = call.lower.withWord text.lower := by
  cases call <;> rfl

theorem Call.lower_withArg (call : Call) (arg : Value) :
    (call.withArg arg).lower = call.lower.withArg arg := by
  cases call <;> rfl

/-- The lower case of a call goes through the words and the arguments that are put in front. -/
theorem lower_map_withWord (call : host.Eval Call) (text : Text) :
    Call.lower <$> (do return (← call).withWord text)
      = (·.withWord text.lower) <$> (Call.lower <$> call) := by
  simp only [bind_pure_comp, Functor.map_map, Call.lower_withWord]

theorem lower_map_withArg (call : host.Eval Call) (arg : Value) :
    Call.lower <$> (do return (← call).withArg arg)
      = (·.withArg arg) <$> (Call.lower <$> call) := by
  simp only [bind_pure_comp, Functor.map_map, Call.lower_withArg]

variable [CallStack]

/-- What a command does once it has been reduced to a call in lower case. -/
def answer (nested : Nested host) (scope : FrameId) : Call → host.Eval Output
  | .thrown value => do
    Eval.record (.thrownInFiller value)
    return .thrown value
  | .ready places args => do
    let found := (← get).store.find? scope ⟨places⟩
    Eval.record (.dispatched ⟨places⟩ args found)
    apply nested scope ⟨places⟩ args found

/-- Of the words of a command only their lower case counts. -/
theorem execute_eq_answer (nested : Nested host) (scope : FrameId) (command : Command) :
    execute nested scope command
      = Call.lower <$> gather nested scope command.parts >>= answer nested scope := by
  rw [bind_map_left]
  refine bind_congr fun call => ?_
  cases call <;> rfl

/-! ## One level of nesting -/

/-- Nested programs that are alike do the same. -/
def Nested.RespectsAlike (nested : Nested host) : Prop :=
  ∀ calls {program other : Program}, Program.Alike program other →
    ∀ scope, nested.evaluate calls program scope = nested.evaluate calls other scope

section

variable {nested : Nested host}

theorem gather_alike (hn : nested.RespectsAlike) (scope : FrameId) :
    ∀ {parts others : List Part}, Part.AllAlike parts others →
    Call.lower <$> gather nested scope parts = Call.lower <$> gather nested scope others
  | _, _, .nil => rfl
  | .word _ _ :: _, .word _ _ :: _, .cons (.word ht) hrest => by
    simp only [gather]
    rw [lower_map_withWord, lower_map_withWord, gather_alike hn scope hrest, ht]
  | .string _ _ :: _, _ :: _, .cons .string hrest => by
    simp only [gather]
    rw [lower_map_withArg, lower_map_withArg, gather_alike hn scope hrest]
  | .filler _ _ :: _, .filler _ _ :: _, .cons (.filler hcontent) hrest => by
    -- Both fillers are evaluated in the same new frame, so only what follows them can differ.
    simp only [gather, map_bind, Nested.filler, hn _ hcontent]
    refine bind_congr fun frame => bind_congr fun output => ?_
    cases output with
    | thrown value => rfl
    | returned value =>
      show Call.lower <$> _ = Call.lower <$> _
      rw [lower_map_withArg, lower_map_withArg, gather_alike hn scope hrest]
    | lastValue value =>
      show Call.lower <$> _ = Call.lower <$> _
      rw [lower_map_withArg, lower_map_withArg, gather_alike hn scope hrest]
  | .foreign _ :: _, _, .cons .foreign _ => rfl

theorem execute_alike (hn : nested.RespectsAlike) (scope : FrameId) {command other : Command}
    (h : command.Alike other) : execute nested scope command = execute nested scope other := by
  cases h with
  | mk hparts =>
    rw [execute_eq_answer, execute_eq_answer]
    exact congrArg (· >>= answer nested scope) (gather_alike hn scope hparts)

theorem runCommands_alike (hn : nested.RespectsAlike) (scope : FrameId) :
    ∀ {program other : List Command} (last : Value), Program.Alike program other →
    runCommands nested scope program last = runCommands nested scope other last
  | _, _, _, .nil => rfl
  | _, _, _, .cons hcommand hrest => by
    simp only [runCommands, execute_alike hn scope hcommand,
      fun last => runCommands_alike hn scope last hrest]

end

/-! ## Programs -/

theorem evaluateWithin_alike (maxDepth : Int) :
    ∀ room calls : Nat, Nested.RespectsAlike (⟨calls, evaluateWithin maxDepth room⟩ : Nested host)
  | 0, _, _, _, _, _, _ => rfl
  | room + 1, _, calls, _, _, h, scope => by
    simp only [evaluateWithin,
      runCommands_alike (evaluateWithin_alike maxDepth room calls) scope _ h]

/-- Programs that are alike are one computation under every limit of the depth. -/
theorem evaluate_alike (maxDepth : Int) (calls : Nat) :
    Nested.RespectsAlike (.under maxDepth calls : Nested host) :=
  fun _ _ _ h scope => bind_congr fun _ => evaluateWithin_alike maxDepth _ calls _ h scope

end Phrasebook
