import Phrasebook.Text.Lowercase

/-! # Lower case stays

A text that has been lowered once is in lower case: lowering it again changes nothing. That is a
property of the table, in which no row leads to a character that lowering would change, and of the
two letters outside the table. The surroundings of a capital sigma play no part the second time,
since none is left.

* `changedRows` — all characters that lowering changes, as rows.
* `LowerRow.misses`, `lowerRows_miss` — a comparison of two rows, and its outcome for the table.
* `IsLower`, `isLower_of_mem_lowerChar` — the characters that lowering leaves as they are.
* `Text.lower_lower`, `Text.lower_eq_nil_iff` — texts.
-/

namespace Phrasebook

/-! ## The table -/

/-- The characters that lowering changes: the capitals of ASCII, capital I with a dot above, and
    those of the table, capital sigma among them. -/
def changedRows : List LowerRow := ⟨0x41, 0x5A, 1, 32⟩ :: ⟨0x130, 0x130, 1, 0⟩ :: lowerRows

namespace LowerRow

/-- The code point that a row leads to from one that it covers. -/
def target (row : LowerRow) (n : Nat) : Nat := ((n : Int) + row.shift).toNat

/-- Whether two rows can be seen to have nothing to do with each other: `row` leads to characters
    all before or all behind those of `other`, or it leads to every second character and `other`
    covers the ones between. -/
def misses (row other : LowerRow) : Bool :=
  (row.target row.last).blt other.first || other.last.blt (row.target row.first)
    || (other.step % 2 == 0 && (row.step % 2 == 0 || row.first == row.last)
      && (row.target row.first + other.first) % 2 == 1 && 0 ≤ (row.first : Int) + row.shift)

theorem covers_iff {row : LowerRow} {n : Nat} :
    row.covers n = true ↔ row.first ≤ n ∧ n ≤ row.last ∧ row.step ∣ n - row.first := by
  simp [covers, and_assoc, Nat.dvd_iff_mod_eq_zero]

theorem covers_target_eq_false {row other : LowerRow} (h : row.misses other = true) {n : Nat}
    (hn : row.covers n = true) : other.covers (row.target n) = false := by
  refine Bool.eq_false_iff.2 fun hcovers => ?_
  obtain ⟨hfirst, hlast, hstep⟩ := covers_iff.1 hn
  obtain ⟨hfirst', hlast', hstep'⟩ := covers_iff.1 hcovers
  simp only [misses, target, Bool.or_eq_true, Bool.and_eq_true, decide_eq_true_eq, beq_iff_eq,
    Nat.blt_eq] at h hfirst' hlast' hstep'
  obtain (hbefore | hbehind) | ⟨⟨⟨heven, hrow⟩, hodd⟩, hpos⟩ := h
  · omega
  · omega
  · -- Both code points lie an even distance behind the first of their rows.
    have htwo' := Nat.dvd_trans (Nat.dvd_of_mod_eq_zero heven) hstep'
    have htwo : 2 ∣ n - row.first := by
      obtain heven | hsingle := hrow
      · exact Nat.dvd_trans (Nat.dvd_of_mod_eq_zero heven) hstep
      · have hn : n - row.first = 0 := by omega
        exact hn ▸ Nat.dvd_zero 2
    omega

end LowerRow

/-- No row of the table leads to a character that lowering would change. -/
theorem lowerRows_miss {row other : LowerRow} (hrow : row ∈ lowerRows)
    (hother : other ∈ changedRows) : row.misses other = true := by
  have hall : (lowerRows.all fun row => changedRows.all row.misses) = true := by decide +kernel
  exact List.all_eq_true.1 (List.all_eq_true.1 hall row hrow) other hother

/-! ## Characters -/

/-- Lowering leaves the character as it is, wherever it stands. -/
def IsLower (c : Char) : Prop := c ≠ capitalSigma ∧ lowerChar c = [c]

instance (c : Char) : Decidable (IsLower c) := inferInstanceAs (Decidable (_ ∧ _))

/-- What holds of the characters of ASCII one by one holds of all of them. -/
theorem of_forall_ascii {P : Char → Prop} (h : ∀ n : Fin 0x80, P (Char.ofNat n)) {c : Char}
    (hc : c.toNat < 0x80) : P c := by
  have hp := h ⟨c.toNat, hc⟩
  rwa [Char.ofNat_toNat] at hp

theorem isLower_toLower {c : Char} (h : c.toNat < 0x80) : IsLower c.toLower :=
  of_forall_ascii (P := fun c => IsLower c.toLower) (by decide +kernel) h

theorem toLower_of_not_covers {c : Char} (h : c.toNat < 0x80)
    (hc : (⟨0x41, 0x5A, 1, 32⟩ : LowerRow).covers c.toNat = false) : c.toLower = c :=
  of_forall_ascii (P := fun c => (⟨0x41, 0x5A, 1, 32⟩ : LowerRow).covers c.toNat = false →
    c.toLower = c) (by decide +kernel) h hc

/-- What no row covers is not changed. -/
theorem isLower_of_not_covers {c : Char}
    (h : ∀ row ∈ changedRows, row.covers c.toNat = false) : IsLower c := by
  simp only [changedRows, List.forall_mem_cons] at h
  obtain ⟨hascii, hdotted, htable⟩ := h
  have hsigma : c ≠ capitalSigma := by
    rintro rfl
    exact absurd htable (by decide +kernel)
  have hdot : c ≠ dottedCapitalI := by
    rintro rfl
    exact absurd hdotted (by decide)
  refine ⟨hsigma, ?_⟩
  unfold lowerChar
  split
  · next hlt => rw [toLower_of_not_covers hlt hascii]
  · have hnone : lowerRows.find? (·.covers c.toNat) = none :=
      List.find?_eq_none.2 fun row hrow => Bool.eq_false_iff.1 (htable row hrow)
    rw [hnone]

/-- Where a row leads there is a character in lower case. -/
theorem isLower_target {row : LowerRow} (hrow : row ∈ lowerRows) {n : Nat}
    (hn : row.covers n = true) : IsLower (Char.ofNat (row.target n)) := by
  by_cases hvalid : (row.target n).isValidChar
  · have htarget : (Char.ofNat (row.target n)).toNat = row.target n := by
      rw [Char.ofNat, dif_pos hvalid]
      rfl
    refine isLower_of_not_covers fun other hother => ?_
    rw [htarget]
    exact LowerRow.covers_target_eq_false (lowerRows_miss hrow hother) hn
  · rw [Char.ofNat, dif_neg hvalid]
    decide +kernel

/-- The lower-case form of a character is in lower case. -/
theorem isLower_of_mem_lowerChar {c d : Char} (hc : c ≠ capitalSigma) (h : d ∈ lowerChar c) :
    IsLower d := by
  unfold lowerChar at h
  split at h
  · next hlt =>
    rw [List.mem_singleton.1 h]
    exact isLower_toLower hlt
  · next hlt =>
    split at h
    · -- Capital I with a dot above: an i, and the dot.
      obtain rfl | h := List.mem_cons.1 h
      · decide +kernel
      · rw [List.mem_singleton.1 h]
        decide +kernel
    · next hdot =>
      cases hfind : lowerRows.find? (·.covers c.toNat) with
      | some row =>
        have hcovers : row.covers c.toNat = true := by simpa using List.find?_some hfind
        rw [hfind] at h
        rw [List.mem_singleton.1 h]
        exact isLower_target (List.mem_of_find?_eq_some hfind) hcovers
      | none =>
        rw [hfind] at h
        rw [List.mem_singleton.1 h]
        exact ⟨hc, by rw [lowerChar, if_neg hlt, if_neg hdot, hfind]⟩

theorem lowerChar_ne_nil (c : Char) : lowerChar c ≠ [] := by
  unfold lowerChar
  split
  · exact List.cons_ne_nil _ _
  · split
    · exact List.cons_ne_nil _ _
    · split <;> exact List.cons_ne_nil _ _

/-! ## Texts -/

namespace Text

theorem isLower_of_mem_lowerFrom {before : Bool} {text : Text} {d : Char}
    (h : d ∈ lowerFrom before text) : IsLower d := by
  induction text generalizing before with
  | nil => cases h
  | cons c rest ih =>
    obtain h | h := List.mem_append.1 h
    · split at h
      · -- Of a sigma there are two lower-case forms, and its place decides which one is taken.
        split at h
        · rw [List.mem_singleton.1 h]
          decide +kernel
        · rw [List.mem_singleton.1 h]
          decide +kernel
      · next hsigma => exact isLower_of_mem_lowerChar hsigma h
    · exact ih h

theorem lowerFrom_eq_self {text : Text} (h : ∀ c ∈ text, IsLower c) (before : Bool) :
    lowerFrom before text = text := by
  induction text generalizing before with
  | nil => rfl
  | cons c rest ih =>
    obtain ⟨⟨hsigma, hc⟩, hrest⟩ := List.forall_mem_cons.1 h
    rw [lowerFrom, if_neg hsigma, hc, ih hrest, List.singleton_append]

/-- A text that has been lowered is in lower case. -/
theorem lower_lower (text : Text) : text.lower.lower = text.lower :=
  lowerFrom_eq_self (fun _ => isLower_of_mem_lowerFrom) false

/-- No character is lost. -/
theorem lower_eq_nil_iff {text : Text} : text.lower = [] ↔ text = [] := by
  constructor
  · intro h
    cases text with
    | nil => rfl
    | cons c rest =>
      have hfirst := (List.append_eq_nil_iff.1 h).1
      split at hfirst
      · split at hfirst <;> cases hfirst
      · exact absurd hfirst (lowerChar_ne_nil c)
  · rintro rfl
    rfl

end Text

end Phrasebook
