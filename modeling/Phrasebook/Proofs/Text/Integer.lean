import Mathlib.Algebra.Group.Nat.Defs
import Phrasebook.Evaluation.Evaluator

/-! # Integers that are read

An integer that is read has few enough digits to be written.

* `Text.readDigits?_lt` — a number is bounded by the digits that it is written with.
* `Text.writable_of_readInt?` — integers that are read.
* `writable_maxDepthOf` — limits of the depth that are not given by a program.
-/

namespace Phrasebook

theorem digitValue?_lt {c : Char} {value : Nat} (h : digitValue? c = some value) : value < 10 := by
  obtain ⟨start, hfound, rfl⟩ := Option.map_eq_some_iff.1 h
  have hrange := List.find?_some hfound
  simp only [Bool.and_eq_true, decide_eq_true_eq] at hrange
  omega

/-- An underscore is no digit. -/
theorem countP_of_digitValue? {c : Char} {value : Nat} (h : digitValue? c = some value)
    (rest : Text) : (c :: rest).countP (· != '_') = rest.countP (· != '_') + 1 := by
  have hc : (c != '_') = true := by
    refine bne_iff_ne.2 ?_
    rintro rfl
    cases h
  exact List.countP_cons_of_pos hc

namespace Text

/-- One more digit makes a number up to ten times as large. -/
theorem lt_of_digit {total value count n : Nat} (hvalue : value < 10)
    (h : n < (total * 10 + value + 1) * 10 ^ count) : n < (total + 1) * 10 ^ (count + 1) :=
  calc n < (total * 10 + value + 1) * 10 ^ count := h
    _ ≤ (total + 1) * 10 * 10 ^ count := Nat.mul_le_mul_right _ (by omega)
    _ = (total + 1) * 10 ^ (count + 1) := by rw [Nat.mul_assoc, Nat.pow_succ, Nat.mul_comm 10]

theorem readDigits?_lt {total n : Nat} {text : Text} (h : readDigits? total text = some n) :
    n < (total + 1) * 10 ^ text.countP (· != '_') := by
  induction total, text using readDigits?.induct with
  | case1 total =>
    cases h
    simp
  | case2 total c rest ih =>
    rw [readDigits?] at h
    obtain ⟨value, hvalue, h⟩ := Option.bind_eq_some_iff.1 h
    have hmark : ('_' :: c :: rest).countP (· != '_') = (c :: rest).countP (· != '_') :=
      List.countP_cons_of_neg (by decide)
    rw [hmark, countP_of_digitValue? hvalue]
    exact lt_of_digit (digitValue?_lt hvalue) (ih value h)
  | case3 total c rest hmark ih =>
    rw [readDigits?] at h
    · obtain ⟨value, hvalue, h⟩ := Option.bind_eq_some_iff.1 h
      rw [countP_of_digitValue? hvalue]
      exact lt_of_digit (digitValue?_lt hvalue) (ih value h)
    · exact hmark

theorem readNat?_lt {text : Text} {n : Nat} (h : readNat? text = some n) : n < digitBound := by
  cases text with
  | nil => cases h
  | cons c rest =>
    rw [readNat?] at h
    split at h
    · cases h
    · next hcount =>
      obtain ⟨value, hvalue, h⟩ := Option.bind_eq_some_iff.1 h
      rw [countP_of_digitValue? hvalue] at hcount
      have hbound : n < (0 + 1) * 10 ^ (rest.countP (· != '_') + 1) :=
        lt_of_digit (digitValue?_lt hvalue) (by simpa using readDigits?_lt h)
      rw [Nat.zero_add, Nat.one_mul] at hbound
      exact Nat.lt_of_lt_of_le hbound (Nat.pow_le_pow_right (by decide) (Nat.le_of_not_lt hcount))

theorem writable_of_readInt? {text : Text} {n : Int} (h : readInt? text = some n) :
    Writable n := by
  unfold readInt? at h
  split at h <;> obtain ⟨value, hvalue, rfl⟩ := Option.map_eq_some_iff.1 h <;>
    simpa [Writable] using readNat?_lt hvalue

end Text

/-- A limit that comes from a setting, or is the default, can be written. -/
theorem writable_maxDepthOf (setting : Option Text) : Text.Writable (maxDepthOf none setting) := by
  show Text.Writable ((setting.bind Text.readInt?).getD defaultMaxDepth)
  cases hread : setting.bind Text.readInt? with
  | none =>
    have hdefault : 150 < Text.digitBound := by decide +kernel
    exact hdefault
  | some n =>
    obtain ⟨text, -, htext⟩ := Option.bind_eq_some_iff.1 hread
    exact Text.writable_of_readInt? htext

end Phrasebook
