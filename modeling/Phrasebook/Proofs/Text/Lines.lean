import Mathlib.Data.List.Induction
import Phrasebook.Text.Basic

/-! # Lines of texts

* `Text.not_mem_of_mem_splitOn` — the pieces between marks do not hold the mark.
* `Text.exists_splitOn_append` — where a text is divided, one of its pieces is.
* `Text.ofNat_length_mono`, `Text.not_mem_ofNat` — the width and the characters of numerals.
-/

namespace Phrasebook

namespace Text

variable {mark : Char}

/-! ## Pieces -/

theorem splitOn_mark_cons (mark : Char) (rest : Text) :
    List.splitOn mark (mark :: rest) = [] :: List.splitOn mark rest := by
  simp [List.splitOn_cons_eq_if_modifyHead]

theorem splitOn_cons_of_ne {c : Char} (hc : c ≠ mark) {rest piece : Text} {pieces : List Text}
    (h : List.splitOn mark rest = piece :: pieces) :
    List.splitOn mark (c :: rest) = (c :: piece) :: pieces := by
  simp [List.splitOn_cons_eq_if_modifyHead, hc, h]

theorem exists_splitOn_eq_cons (mark : Char) (text : Text) :
    ∃ piece pieces, List.splitOn mark text = piece :: pieces :=
  List.exists_cons_of_ne_nil (List.splitOn_ne_nil mark text)

theorem not_mem_of_mem_splitOn {text piece : Text} (h : piece ∈ List.splitOn mark text) :
    mark ∉ piece := by
  induction text generalizing piece with
  | nil =>
    rw [List.splitOn_nil, List.mem_singleton] at h
    subst h
    exact List.not_mem_nil
  | cons c rest ih =>
    by_cases hc : c = mark
    · subst hc
      rw [splitOn_mark_cons, List.mem_cons] at h
      obtain rfl | h := h
      · exact List.not_mem_nil
      · exact ih h
    · obtain ⟨first, others, hs⟩ := exists_splitOn_eq_cons mark rest
      rw [splitOn_cons_of_ne hc hs, List.mem_cons] at h
      rw [hs] at ih
      obtain rfl | h := h
      · exact List.not_mem_cons_of_ne_of_not_mem (Ne.symm hc) (ih List.mem_cons_self)
      · exact ih (List.mem_cons_of_mem _ h)

/-! ## Dividing a text -/

theorem afterLast_append_singleton (mark : Char) (head : Text) (c : Char) :
    afterLast mark (head ++ [c]) = if c = mark then [] else afterLast mark head ++ [c] := by
  by_cases hc : c = mark <;> simp [afterLast, hc]

/-- Where a text is divided, the piece that the place lies in is divided: to what lies behind the
    last mark before it belongs the first piece of the rest. As many pieces stand before it as there
    are marks. -/
theorem exists_splitOn_append (head : Text) {rest piece : Text} {after : List Text}
    (h : List.splitOn mark rest = piece :: after) :
    ∃ before, before.length = head.count mark
      ∧ List.splitOn mark (head ++ rest) = before ++ (afterLast mark head ++ piece) :: after := by
  induction head using List.reverseRecOn generalizing rest piece after with
  | nil => exact ⟨[], rfl, h⟩
  | append_singleton head c ih =>
    rw [List.append_assoc, List.singleton_append, afterLast_append_singleton]
    by_cases hc : c = mark
    · subst hc
      have hrest : List.splitOn c (c :: rest) = [] :: piece :: after := by rw [splitOn_mark_cons, h]
      obtain ⟨before, hlength, hs⟩ := ih hrest
      refine ⟨before ++ [afterLast c head], ?_, ?_⟩
      · simp [hlength]
      · simp [hs]
    · obtain ⟨before, hlength, hs⟩ := ih (splitOn_cons_of_ne hc h)
      refine ⟨before, ?_, ?_⟩
      · simp [hlength, List.count_append, hc]
      · simp [hs, hc]

/-! ## Numerals -/

@[simp] theorem ofInt_natCast (n : Nat) : ofInt n = ofNat n := rfl

/-- The numeral of a larger number is no shorter. -/
theorem ofNat_length_mono {m n : Nat} (h : m ≤ n) : (ofNat m).length ≤ (ofNat n).length := by
  have hpos : 0 < (ofNat n).length := Nat.length_toDigits_pos
  have hn : n < 10 ^ (ofNat n).length :=
    (Nat.length_toDigits_le_iff (by decide) hpos).1 (Nat.le_refl _)
  exact (Nat.length_toDigits_le_iff (by decide) hpos).2 (Nat.lt_of_le_of_lt h hn)

theorem not_mem_ofNat {c : Char} (hc : c.isDigit = false) (n : Nat) : c ∉ ofNat n := by
  intro h
  have hdigit := Nat.isDigit_of_mem_toDigits (by decide) (by decide) h
  rw [hc] at hdigit
  cases hdigit

end Text

end Phrasebook
