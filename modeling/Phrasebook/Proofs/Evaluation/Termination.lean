import Mathlib.Logic.Function.Iterate
import Phrasebook.Proofs.Evaluation.Nesting
import Phrasebook.Proofs.Evaluation.Sequence
import Phrasebook.Session.Basic

/-! # Every evaluation comes to an end

A branch can run a text that was not part of the program, and that runs itself again. So it is not
the program that gets smaller from one level of nesting to the next, but the number of levels that
are left below the limit of the depth. Between the commands of one level it stays as it is, since
every program that was opened has been closed by then.

* `evaluateOnce_of_agree` — one level asks only about states in which fewer levels are left.
* `evaluateByDepth` — all levels, by recursion on the levels that are left at the depth.
* `evaluate_terminates` — the evaluation of a program is what the levels determine.
-/

namespace Phrasebook

variable {host : Host} {maxDepth : Int}

section

variable [CallStack]

/-! ## One level -/

/-- One level asks about nothing but programs one level deeper. If what it is told about them is
    what their evaluation comes to, so is what it comes to itself. -/
theorem evaluateOnce_of_agree (hhost : host.Nests maxDepth) {nested : Evaluation host}
    {state : host.State}
    (h : ∀ calls program scope (inside : host.State),
      room maxDepth inside.depth < room maxDepth state.depth →
      nested calls program scope inside = evaluate maxDepth calls program scope inside)
    (calls : Nat) (program : Program) (scope : FrameId) :
    evaluateOnce maxDepth nested calls program scope state
      = evaluate maxDepth calls program scope state := by
  rw [evaluate_eq_evaluateOnce, evaluateOnce_apply, evaluateOnce_apply]
  by_cases hreached : maxDepth ≤ state.depth
  · rw [if_pos hreached, if_pos hreached]
  have hless : room maxDepth (state.depth + 1) < room maxDepth state.depth := by
    simp only [room]
    omega
  have hkeeps := hhost.keeps_depth (state.depth + 1)
  -- All programs of the level are one deeper than the level: those before them keep the depth.
  have hfollows : Nested.Follows (·.depth = state.depth + 1) (fun _ => False) (fun _ => False)
      ⟨calls, evaluateWithin maxDepth (room maxDepth (state.depth + 1))⟩ ⟨calls, nested⟩ := by
    refine .of_evaluate hkeeps calls fun calls program scope => ?_
    refine .of_eq (fun inside hinside => ?_) fun inside hinside => ?_
    · have hrun := (evaluate_nests hhost calls program scope).ensures_depth _ inside hinside
      rw [evaluate_eq_evaluateWithin, hinside] at hrun
      exact hrun
    · rw [h calls program scope inside (hinside.symm ▸ hless), evaluate_eq_evaluateWithin, hinside]
  have hruns := runCommands_follows hkeeps hfollows scope program .nothing
  have hsame : runCommands ⟨calls, nested⟩ scope program .nothing state.enter
      = runCommands ⟨calls, evaluateWithin maxDepth (room maxDepth (state.depth + 1))⟩ scope
          program .nothing state.enter := by
    refine hruns.eq_of_not_excused rfl ?_ fun _ _ _ hfalse => hfalse
    rintro _ _ _ ⟨_, _, hfalse⟩
    exact hfalse
  rw [hsame]

/-! ## All levels -/

/-- The evaluation of a program, by recursion on the levels that are left at the depth of the state.
    Nothing is said about nested programs unless fewer levels are left to them, and nothing has to
    be: there always are fewer. -/
def evaluateByDepth (maxDepth : Int) (calls : Nat) (program : Program) (scope : FrameId)
    (state : host.State) : EStateM.Result Fault host.State Output :=
  evaluateOnce maxDepth (fun more inner frame inside =>
    if room maxDepth inside.depth < room maxDepth state.depth then
      evaluateByDepth maxDepth more inner frame inside
    else .error .tooDeep inside) calls program scope state
termination_by room maxDepth state.depth

/-- After more steps than levels are left, it makes no difference what was supposed of the programs
    inside. -/
theorem iterate_evaluateOnce (hhost : host.Nests maxDepth) (nested : Evaluation host)
    {levels : Nat} {state : host.State} (h : room maxDepth state.depth < levels) (calls : Nat)
    (program : Program) (scope : FrameId) :
    (evaluateOnce maxDepth)^[levels] nested calls program scope state
      = evaluate maxDepth calls program scope state := by
  induction levels generalizing calls program scope state with
  | zero => exact absurd h (Nat.not_lt_zero _)
  | succ levels ih =>
    rw [Function.iterate_succ_apply']
    refine evaluateOnce_of_agree hhost (fun calls program scope inside hinside => ?_) calls program
      scope
    exact ih (Nat.lt_of_lt_of_le hinside (Nat.le_of_lt_succ h)) calls program scope

theorem evaluateOnce_evaluate (hhost : host.Nests maxDepth) :
    (evaluateOnce maxDepth (evaluate maxDepth) : Evaluation host) = evaluate maxDepth := by
  funext calls program scope state
  exact evaluateOnce_of_agree hhost (fun _ _ _ _ _ => rfl) calls program scope

/-- The evaluation is the only one of which each level is what the checks of the stack and of the
    depth and the commands make of the next. -/
theorem eq_evaluateOnce_iff (hhost : host.Nests maxDepth) {nested : Evaluation host} :
    nested = evaluateOnce maxDepth nested ↔ nested = evaluate maxDepth := by
  constructor
  · intro h
    funext calls program scope state
    have hiterate := iterate_evaluateOnce hhost nested
      (Nat.lt_succ_self (room maxDepth state.depth)) calls program scope
    rwa [Function.iterate_fixed h.symm] at hiterate
  · rintro rfl
    exact (evaluateOnce_evaluate hhost).symm

theorem evaluateByDepth_eq (hhost : host.Nests maxDepth) (calls : Nat) (program : Program)
    (scope : FrameId) (state : host.State) :
    evaluateByDepth maxDepth calls program scope state
      = evaluate maxDepth calls program scope state := by
  rw [evaluateByDepth]
  refine evaluateOnce_of_agree hhost (fun more inner frame inside hinside => ?_) calls program scope
  rw [if_pos hinside]
  exact evaluateByDepth_eq hhost more inner frame inside
termination_by room maxDepth state.depth

/-- The evaluation of every program comes to an end, whatever texts it runs as branches. It takes no
    more levels than are left at the depth: what programs further inside would do makes no
    difference. So it is the only evaluation of which each level checks the stack and the depth and
    runs the commands, and it can be defined by recursion on the levels that are left. However it
    ends, all programs that were opened are closed, and at no moment more of them were open than
    levels were left. -/
theorem evaluate_terminates (hhost : host.Nests maxDepth) (calls : Nat) (program : Program)
    (scope : FrameId) (state : host.State) :
    (∀ (nested : Evaluation host) (levels : Nat), room maxDepth state.depth < levels →
      (evaluateOnce maxDepth)^[levels] nested calls program scope state
        = evaluate maxDepth calls program scope state)
    ∧ (∀ nested : Evaluation host,
      nested = evaluateOnce maxDepth nested ↔ nested = evaluate maxDepth)
    ∧ evaluateByDepth maxDepth calls program scope state
      = evaluate maxDepth calls program scope state
    ∧ (evaluate maxDepth calls program scope : host.Eval Output).Nests maxDepth :=
  ⟨fun nested _ h => iterate_evaluateOnce hhost nested h calls program scope,
    fun _ => eq_evaluateOnce_iff hhost, evaluateByDepth_eq hhost calls program scope state,
    evaluate_nests hhost calls program scope⟩

end

open StandardStack

/-- A branch that runs itself again. Under a limit of three it does so twice, and ends in the error
    for reaching the limit. Before that three programs were open at once. -/
theorem evaluate_terminates_of_loop :
    let text := "if {1}, then (x)".toList
    let builtins : Store Empty := (bindActions Store.empty.root.2 0 builtinActions).1
    let store := builtins.bind 0 (.ofWord ['x']) (.stored (.string text))
    let state : Host.alone.State := { State.initial () with store }
    let program : Program := [.mk [.word "if".toList none, .string ['1'] none, .word [','] none,
      .word "then".toList none, .filler [.mk [.word ['x'] none] none] none] none]
    Host.alone.Nests 3 ∧ (parseProgram text).toOption.map (Program.same · program) = some true
      ∧ ∃ after, evaluateByDepth 3 0 program 0 state = .ok (.error (depthMessage 3)) after
        ∧ (evaluateOnce 3)^[4] (fun _ _ _ => throw .tooDeep) 0 program 0 state
          = .ok (.error (depthMessage 3)) after
        ∧ state.Nests 3 0 after
        ∧ TraceEvent.openAfter (after.trace.toList.take 11) = 3 := by
  intro text builtins store state program
  have hhost := Host.alone_nests 3
  have hloop : (match evaluate 3 0 program 0 state with
      | .ok output after => some (output, TraceEvent.openAfter (after.trace.toList.take 11))
      | .error _ _ => none) = some (.error (depthMessage 3), 3) := by
    decide +kernel
  obtain ⟨hiterate, -, hbyDepth, hnests⟩ := evaluate_terminates hhost 0 program 0 state
  replace hnests := hnests state
  cases hrun : evaluate 3 0 program 0 state with
  | error fault after =>
    rw [hrun] at hloop
    cases hloop
  | ok output after =>
    rw [hrun] at hloop hbyDepth hnests
    obtain ⟨rfl, hopen⟩ := Prod.mk.inj (Option.some.inj hloop)
    exact ⟨hhost, by decide +kernel, after, hbyDepth,
      (hiterate _ 4 (by decide)).trans hrun, hnests, hopen⟩

end Phrasebook
