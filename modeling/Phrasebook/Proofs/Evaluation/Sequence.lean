import Phrasebook.Proofs.Evaluation.Comparison

/-! # Programs in pieces

What the evaluation of a program has to do with those of its beginning and of its rest.

* `runCommands_cons` — the first command, and those behind it.
* `runCommands_append` — a program goes on where its beginning ended.
* `evaluateOnce` — one level of an evaluation, which checks the depth and runs the commands.
* `evaluate_eq_evaluateOnce` — an evaluation is one level, and the levels below it.
* `evaluate_of_reached` — at the limit an evaluation comes to its end at once.
* `evaluate_eq_leave` — below the limit an evaluation runs the commands one level deeper.
* `room_of_evaluate` — an evaluation that does not throw was below the limit.
-/

namespace Phrasebook

variable {host : Host} [CallStack]

theorem runCommands_cons (nested : Nested host) (scope : FrameId) (command : Command)
    (rest : List Command) (last : Value) (state : host.State) :
    runCommands nested scope (command :: rest) last state
      = match execute nested scope command (state.record (.began state.depth)) with
        | .ok (.thrown value) after => .ok (.thrown value) after
        | .ok (.returned value) after | .ok (.lastValue value) after =>
          runCommands nested scope rest value after
        | .error fault after => .error fault after := by
  show EStateM.bind (execute nested scope command) _ (state.record (.began state.depth)) = _
  unfold EStateM.bind
  split
  · next output after he =>
    rw [he]
    cases output <;> rfl
  · next fault after he => rw [he]

/-- Where the commands of a beginning come to their end, the rest goes on from there. -/
theorem runCommands_append {nested : Nested host} {scope : FrameId} {beginning : List Command}
    {last value : Value} {state after : host.State}
    (h : runCommands nested scope beginning last state = .ok (.lastValue value) after)
    (rest : List Command) :
    runCommands nested scope (beginning ++ rest) last state
      = runCommands nested scope rest value after := by
  induction beginning generalizing last state with
  | nil =>
    cases h
    rfl
  | cons command beginning ih =>
    rw [runCommands_cons] at h
    rw [List.cons_append, runCommands_cons]
    split at h
    · cases h
    · exact ih h
    · exact ih h
    · cases h

/-! ## Levels -/

variable {maxDepth : Int}

/-- The evaluation of a program, of which only the check of the stack, the check of the depth and
    the commands are known: programs that are nested in it are left to `nested`. -/
def evaluateOnce (maxDepth : Int) (nested : Evaluation host) : Evaluation host :=
  fun calls program scope => onStack calls do
    if maxDepth ≤ (← get).depth then refuse maxDepth
    else Eval.nest (runCommands ⟨calls, nested⟩ scope program .nothing)

theorem evaluateOnce_apply (maxDepth : Int) (nested : Evaluation host) (calls : Nat)
    (program : Program) (scope : FrameId) (state : host.State) :
    evaluateOnce maxDepth nested calls program scope state
      = if calls < CallStack.size then
          if maxDepth ≤ state.depth then refuse maxDepth state
          else Eval.leave (runCommands ⟨calls, nested⟩ scope program .nothing state.enter)
        else .error .tooDeep state := by
  rw [evaluateOnce, onStack]
  by_cases hstack : calls < CallStack.size
  · rw [if_pos hstack, if_pos hstack]
    show (if maxDepth ≤ state.depth then _ else _ : host.Eval Output) state = _
    by_cases hreached : maxDepth ≤ state.depth
    · rw [if_pos hreached, if_pos hreached]
    · rw [if_neg hreached, if_neg hreached, Eval.nest_eq]
  · rw [if_neg hstack, if_neg hstack]
    rfl

theorem evaluate_eq_evaluateWithin (maxDepth : Int) (calls : Nat) (program : Program)
    (scope : FrameId) (state : host.State) :
    evaluate maxDepth calls program scope state
      = evaluateWithin maxDepth (room maxDepth state.depth) calls program scope state := rfl

/-- An evaluation leaves to the programs inside what is left below its own level. -/
theorem evaluate_eq_evaluateOnce (calls : Nat) (program : Program) (scope : FrameId)
    (state : host.State) :
    evaluate maxDepth calls program scope state
      = evaluateOnce maxDepth (evaluateWithin maxDepth (room maxDepth (state.depth + 1))) calls
          program scope state := by
  rw [evaluateOnce_apply, evaluate_eq_evaluateWithin]
  by_cases hreached : maxDepth ≤ state.depth
  · have hroom : room maxDepth state.depth = 0 := by
      simp only [room]
      omega
    rw [if_pos hreached, hroom, evaluateWithin, onStack]
    split <;> rfl
  · have hroom : room maxDepth state.depth = room maxDepth (state.depth + 1) + 1 := by
      simp only [room]
      omega
    rw [if_neg hreached, hroom, evaluateWithin, onStack, ← Eval.nest_eq]
    split <;> rfl

/-- At the limit, no program is evaluated: an error says so, if it can be written. -/
theorem evaluate_of_reached {state : host.State} (h : maxDepth ≤ state.depth) (calls : Nat)
    (program : Program) (scope : FrameId) :
    evaluate maxDepth calls program scope state
      = if calls < CallStack.size then
          if Text.Writable maxDepth then .ok (.error (depthMessage maxDepth)) state
          else .error (.unwritable maxDepth) state
        else .error .tooDeep state := by
  rw [evaluate_eq_evaluateOnce, evaluateOnce_apply, if_pos h, refuse]
  split
  · split <;> rfl
  · rfl

/-- Below the limit, the commands of a program are run with the depth raised by one. -/
theorem evaluate_eq_leave {calls : Nat} {state : host.State} {levels : Nat}
    (hroom : room maxDepth state.depth = levels + 1) (hcalls : calls < CallStack.size)
    (program : Program) (scope : FrameId) :
    evaluate maxDepth calls program scope state
      = Eval.leave (runCommands ⟨calls, evaluateWithin maxDepth levels⟩ scope program .nothing
          state.enter) := by
  simp only [room] at hroom
  have hbelow : ¬ maxDepth ≤ state.depth := by omega
  have hlevels : room maxDepth (state.depth + 1) = levels := by
    simp only [room]
    omega
  rw [evaluate_eq_evaluateOnce, evaluateOnce_apply, if_pos hcalls, if_neg hbelow, hlevels]

omit [CallStack] in
/-- At the limit of the depth there is an error, or a fault, but no value. -/
theorem thrown?_of_refuse {state after : host.State} {output : Output}
    (h : refuse maxDepth state = .ok output after) : output.thrown? ≠ none := by
  rw [refuse] at h
  split at h
  · cases h
    exact Option.some_ne_none _
  · cases h

/-- An evaluation that throws nothing was below the limit, and had room on the stack. -/
theorem room_of_evaluate {calls : Nat} {program : Program} {scope : FrameId}
    {state after : host.State} {output : Output}
    (h : evaluate maxDepth calls program scope state = .ok output after)
    (ho : output.thrown? = none) :
    ∃ levels, room maxDepth state.depth = levels + 1 ∧ calls < CallStack.size := by
  rw [evaluate_eq_evaluateOnce, evaluateOnce_apply] at h
  split at h
  · next hcalls =>
    split at h
    · exact absurd ho (thrown?_of_refuse h)
    · next hbelow =>
      refine ⟨room maxDepth (state.depth + 1), ?_, hcalls⟩
      simp only [room]
      omega
  · cases h

end Phrasebook
