import Phrasebook.Proofs.Evaluation.Exchange
import Phrasebook.Proofs.Evaluation.Sequence
import Phrasebook.Session.Basic

/-! # Higher limits of the depth

The limit of the depth shows in nothing but the error for reaching it. Nothing catches that error,
so an evaluation that does not end in it has never reached the limit, and goes the same way under
every higher one.

* `evaluateWithin_follows`, `evaluate_follows` — with more levels left, by induction on the levels.
* `evaluate_eq_of_limit_le` — under a higher limit.
-/

namespace Phrasebook

variable {host : Host}

/-- At the limit of the depth, whatever else might be done need not be done. -/
theorem refuse_follows (maxDepth : Int) (m : host.Eval Output) :
    Eval.Follows (fun _ => True) (Fault.HidesLimit maxDepth)
      (Output.Throws (· = .error (depthMessage maxDepth))) (refuse maxDepth) m := by
  unfold refuse
  split
  · exact fun _ _ => .inl ⟨_, rfl, rfl⟩
  · next hwritable => exact fun _ _ => .inl ⟨rfl, hwritable⟩

section

variable [CallStack]

/-- An evaluation with more levels left does the same as one with fewer, unless this one ends for
    having none. -/
theorem evaluateWithin_follows (maxDepth higher : Int) : ∀ {room more : Nat}, room ≤ more →
    ∀ calls program scope, Eval.Follows (fun _ => True) (Fault.HidesLimit maxDepth)
      (Output.Throws (· = .error (depthMessage maxDepth)))
      (evaluateWithin maxDepth room calls program scope : host.Eval Output)
      (evaluateWithin higher more calls program scope)
  | 0, 0, _, calls, _, _ => (refuse_follows maxDepth _).onStack calls
  | 0, _ + 1, _, calls, _, _ => (refuse_follows maxDepth _).onStack calls
  | _ + 1, _ + 1, hle, calls, program, scope => by
    have hlevel := Nested.Follows.of_evaluate host.keeps_true calls
      (evaluateWithin_follows maxDepth higher (Nat.le_of_succ_le_succ hle))
    have hrun := runCommands_follows host.keeps_true hlevel scope program .nothing
    exact (hrun.nest (fun _ _ => trivial) fun _ _ => trivial).onStack calls

theorem evaluate_follows {maxDepth higher : Int} (hle : maxDepth ≤ higher) (calls : Nat)
    (program : Program) (scope : FrameId) :
    Eval.Follows (fun _ => True) (Fault.HidesLimit maxDepth)
      (Output.Throws (· = .error (depthMessage maxDepth)))
      (evaluate maxDepth calls program scope : host.Eval Output)
      (evaluate higher calls program scope) := by
  refine .get_bind fun state _ => evaluateWithin_follows maxDepth higher ?_ calls program scope
  simp only [room]
  omega

/-- An evaluation that does not end in the error for reaching the limit of the depth, or in the
    fault that stands for it where the limit has too many digits, goes the same way under every
    higher limit: it ends alike, in an output or a fault, and comes to the same effects and the same
    frames, from whatever depth and in whatever scope. Actions of an embedding program may occur,
    since what they do does not depend on the limit either. -/
theorem evaluate_eq_of_limit_le {maxDepth higher : Int} (hle : maxDepth ≤ higher) (calls : Nat)
    (program : Program) (scope : FrameId) (state : host.State)
    (hlimit : ∀ after, evaluate maxDepth calls program scope state
      ≠ .ok (.error (depthMessage maxDepth)) after)
    (hwritten : ¬ Text.Writable maxDepth → ∀ after,
      evaluate maxDepth calls program scope state ≠ .error (.unwritable maxDepth) after) :
    evaluate higher calls program scope state = evaluate maxDepth calls program scope state := by
  refine (evaluate_follows hle calls program scope).eq_of_not_excused trivial ?_ ?_
  · rintro _ after hr ⟨_, rfl, rfl⟩
    exact hlimit after hr
  · rintro _ after hr ⟨rfl, hwritable⟩
    exact hwritten hwritable after hr

end

open StandardStack

/-- A branch that is fetched from a name needs two levels. With one it ends in the error, with two
    it does what it does with a hundred. -/
theorem evaluate_eq_of_limit_le_of_branch :
    let builtins : Store Empty := (bindActions Store.empty.root.2 0 builtinActions).1
    let store := builtins.bind 0 (.ofWord ['x']) (.stored (.string "print {1}".toList))
    let state : Host.alone.State := { State.initial () with store }
    let program : Program := [.mk [.word "if".toList none, .string ['1'] none, .word [','] none,
      .word "then".toList none, .filler [.mk [.word ['x'] none] none] none] none]
    (∃ after, evaluate 1 0 program 0 state = .ok (.error (depthMessage 1)) after)
      ∧ (∀ after, evaluate 2 0 program 0 state ≠ .ok (.error (depthMessage 2)) after)
      ∧ Text.Writable 2
      ∧ evaluate 100 0 program 0 state = evaluate 2 0 program 0 state := by
  intro builtins store state program
  have hone : (match evaluate 1 0 program 0 state with
      | .ok output _ => some output
      | .error _ _ => none) = some (.error (depthMessage 1)) := by
    decide +kernel
  have htwo : (match evaluate 2 0 program 0 state with
      | .ok output _ => some output
      | .error _ _ => none) = some (.lastValue .nothing) := by
    decide +kernel
  have hlimit : ∀ after, evaluate 2 0 program 0 state ≠ .ok (.error (depthMessage 2)) after := by
    intro after hr
    rw [hr] at htwo
    cases htwo
  have hwritable : Text.Writable 2 := by decide +kernel
  refine ⟨?_, hlimit, hwritable,
    evaluate_eq_of_limit_le (by decide) 0 program 0 state hlimit (absurd hwritable)⟩
  cases hr : evaluate 1 0 program 0 state with
  | ok output after =>
    rw [hr] at hone
    obtain rfl := Option.some.inj hone
    exact ⟨after, rfl⟩
  | error fault after =>
    rw [hr] at hone
    cases hone

/-- A limit that is too long to be written: the empty program does not end in an error that tells of
    it, and comes to its end under a higher limit. -/
theorem evaluate_ne_of_limit_le :
    let maxDepth : Int := -(Text.digitBound : Int)
    let state : Host.alone.State := State.initial ()
    maxDepth ≤ 10
      ∧ (∀ after, evaluate maxDepth 0 [] 0 state ≠ .ok (.error (depthMessage maxDepth)) after)
      ∧ (∃ after, evaluate 10 0 [] 0 state = .ok (.lastValue .nothing) after)
      ∧ evaluate maxDepth 0 [] 0 state = .error (.unwritable maxDepth) state := by
  intro maxDepth state
  have hneg : maxDepth ≤ 0 := Int.neg_nonpos_of_nonneg (Int.natCast_nonneg _)
  have hfault : evaluate maxDepth 0 [] 0 state = .error (.unwritable maxDepth) state := by
    rw [evaluate_of_reached hneg, if_pos CallStack.size_pos,
      if_neg Text.not_writable_neg_digitBound]
  refine ⟨Int.le_trans hneg (by decide), ?_, ⟨_, rfl⟩, hfault⟩
  intro after hend
  rw [hfault] at hend
  cases hend

end Phrasebook
