import Phrasebook.Proofs.Evaluation.Exchange
import Phrasebook.Proofs.Reader.Levels

/-! # Room on the stack

The fewer calls are open, the more room there is on the stack. What an evaluation does that finds
room enough, it does with fewer calls open as well.

* `readProgram_follows` — texts that are read during an evaluation.
* `Nested.follows_of_le` — the levels of nesting.
* `evaluate_followsOnStack` — programs, by induction on the levels that are left.
-/

namespace Phrasebook

variable {host : Host}

/-- With fewer calls open, the computation does the same, unless it found no room on the stack. -/
def Eval.FollowsOnStack {α : Type} (Excused : α → Prop) (m m' : host.Eval α) : Prop :=
  Eval.Follows (fun _ => True) (· = .tooDeep) Excused m m'

variable [CallStack]

theorem readProgram_follows {calls fewer : Nat} (hle : fewer ≤ calls) (text : Text) :
    Eval.FollowsOnStack (fun _ => False)
      (readProgram calls text : host.Eval (Except SyntaxError Program))
      (readProgram fewer text) := by
  unfold readProgram
  -- A text that is read within some levels is read alike within more.
  cases hread : parseProgramWithin (readingLimit calls) text with
  | ok program =>
    rw [parseProgramWithin_of_le (readingLimit_anti hle) (by simp [hread]), hread]
    exact .of_pure _
  | error fault =>
    cases fault with
    | tooDeep => exact fun _ _ => .inl rfl
    | malformed e =>
      rw [parseProgramWithin_of_le (readingLimit_anti hle) (by simp [hread]), hread]
      exact .of_pure _

theorem onStack_follows {α : Type} {Excused : α → Prop} {calls fewer : Nat} {m m' : host.Eval α}
    (hle : fewer ≤ calls) (h : Eval.FollowsOnStack Excused m m') :
    Eval.FollowsOnStack Excused (onStack calls m) (onStack fewer m') := by
  unfold onStack
  by_cases hcalls : calls < CallStack.size
  · rw [if_pos hcalls, if_pos (Nat.lt_of_le_of_lt hle hcalls)]
    exact h
  · rw [if_neg hcalls]
    exact fun _ _ => .inl rfl

/-- With fewer calls open, programs are evaluated alike at the levels inside. -/
theorem Nested.follows_of_le {calls fewer : Nat} (hle : fewer ≤ calls)
    {evaluation : Evaluation host}
    (h : ∀ {calls fewer : Nat}, fewer ≤ calls → ∀ program scope,
      Eval.FollowsOnStack (Output.Throws fun _ => False) (evaluation calls program scope)
        (evaluation fewer program scope)) :
    Nested.Follows (fun _ => True) (· = .tooDeep) (fun _ => False) ⟨calls, evaluation⟩
      ⟨fewer, evaluation⟩ where
  read := readProgram_follows hle
  filler := h (Nat.add_le_add_right hle _)
  branch := h (Nat.add_le_add_right hle _)

theorem evaluateWithin_followsOnStack (maxDepth : Int) : ∀ (room : Nat) {calls fewer : Nat},
    fewer ≤ calls → ∀ program scope,
    Eval.FollowsOnStack (Output.Throws fun _ => False)
      (evaluateWithin maxDepth room calls program scope : host.Eval Output)
      (evaluateWithin maxDepth room fewer program scope)
  | 0, _, _, hle, _, _ =>
    onStack_follows hle (.refl (host.keeps_true.compositional.refuse maxDepth))
  | room + 1, _, _, hle, program, scope =>
    have hinside := Nested.follows_of_le hle (evaluateWithin_followsOnStack maxDepth room)
    have hrun := runCommands_follows host.keeps_true hinside scope program .nothing
    onStack_follows hle (hrun.nest (fun _ _ => trivial) fun _ _ => trivial)

theorem evaluate_followsOnStack (maxDepth : Int) {calls fewer : Nat} (hle : fewer ≤ calls)
    (program : Program) (scope : FrameId) :
    Eval.FollowsOnStack (Output.Throws fun _ => False)
      (evaluate maxDepth calls program scope : host.Eval Output)
      (evaluate maxDepth fewer program scope) :=
  .get_bind fun _ _ => evaluateWithin_followsOnStack maxDepth _ hle program scope

end Phrasebook
