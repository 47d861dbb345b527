import Phrasebook.Proofs.Grammar.Completeness
import Phrasebook.Proofs.Grammar.Soundness
import Phrasebook.Proofs.Reader.Levels

/-! # The reader accepts exactly the grammar

* `Spells.unique` — a text spells at most one program.
* `parseProgramWithin_of_spells` — a text that spells a program is read, or nests too deep.
* `parse_clean_iff_spells` — what is read to its end is what the text spells.
* `parseProgram_exact` — the same for texts that have to be programs from end to end.
-/

namespace Phrasebook

/-- However deep its fillers nest, a text spells one program at most. -/
theorem Spells.unique {text : Text} {program other : Program} (h : Spells text program)
    (ho : Spells text other) : Program.same program other = true := by
  -- One level that is enough for both programs reads the text as each of them.
  let n := max (Program.nesting program) (Program.nesting other)
  obtain ⟨read, he, hr, -⟩ := Reader.program_whole h (Nat.le_max_left _ _ : _ ≤ n) .start
  obtain ⟨again, hea, hra, -⟩ := Reader.program_whole ho (Nat.le_max_right _ _ : _ ≤ n) .start
  have hsame : read = again := (Reader.Reading.mk.inj (hr.symm.trans hra)).1
  rw [Program.same_iff, ← he, ← hea, hsame]

/-- Of a text that spells a program, a reader with some levels reads the program, or it gives up as
    the fillers nest deeper than that. -/
theorem parseProgramWithin_of_spells {text : Text} {program : Program} (h : Spells text program)
    (levels : Nat) :
    (Program.nesting program < levels → ∃ read, parseProgramWithin levels text = .ok read
      ∧ Program.same read program = true)
    ∧ (levels ≤ Program.nesting program → parseProgramWithin levels text = .error .tooDeep) := by
  constructor
  · intro hn
    obtain ⟨read, hread, he⟩ := parse_of_spells h hn
    exact ⟨read, Parse.whole_eq_ok_iff.2 hread, (Program.same_iff _ _).2 he⟩
  · intro hn
    refine Classical.byContradiction fun hne => ?_
    -- With more levels the program is read, so it is read with these, and nests no deeper.
    obtain ⟨read, hread, he⟩ := parse_of_spells h (Nat.lt_succ_self _)
    have hless := parseProgramWithin_of_le (Nat.le_succ_of_le hn) hne
    rw [parseProgramWithin, hread] at hless
    obtain ⟨-, hdeep⟩ := spells_of_parse (Parse.whole_eq_ok_iff.1 hless.symm)
    rw [← Program.nesting_erase, he, Program.nesting_erase] at hdeep
    exact Nat.lt_irrefl _ (Nat.lt_of_lt_of_le hdeep hn)

variable [CallStack]

theorem parse_clean_iff_spells {text : Text} {program : Program} :
    (∃ read, parse text = .ok ⟨read, .clean⟩ ∧ Program.same read program = true)
      ↔ Spells text program ∧ Program.nesting program < nestingLimit := by
  constructor
  · rintro ⟨read, hread, hsame⟩
    have he := (Program.same_iff _ _).1 hsame
    obtain ⟨hs, hn⟩ := spells_of_parse hread
    rw [← Program.nesting_erase, he, Program.nesting_erase] at hn
    exact ⟨hs.of_erase_eq he, hn⟩
  · rintro ⟨hs, hn⟩
    obtain ⟨read, hread, he⟩ := parse_of_spells hs hn
    exact ⟨read, hread, (Program.same_iff _ _).2 he⟩

/-- A text is accepted as a program, up to positions, exactly if it spells it and its fillers nest
    less deep than the limit. It spells no other program, and it is refused exactly if it spells
    none that the limit allows. -/
theorem parseProgram_exact (text : Text) :
    (∀ program, (∃ read, parseProgram text = .ok read ∧ Program.same read program = true)
      ↔ Spells text program ∧ Program.nesting program < nestingLimit)
    ∧ (∀ program other, Spells text program → Spells text other →
        Program.same program other = true)
    ∧ ((∃ fault, parseProgram text = .error fault)
        ↔ ∀ program, Spells text program → nestingLimit ≤ Program.nesting program) := by
  have hread : ∀ program,
      (∃ read, parseProgram text = .ok read ∧ Program.same read program = true)
        ↔ Spells text program ∧ Program.nesting program < nestingLimit := by
    intro program
    simp only [parseProgram_eq_ok_iff]
    exact parse_clean_iff_spells
  refine ⟨hread, fun _ _ h ho => h.unique ho, ?_, ?_⟩
  · rintro ⟨fault, hfault⟩ program hs
    refine Nat.not_lt.1 fun hn => ?_
    obtain ⟨read, hok, -⟩ := (hread program).2 ⟨hs, hn⟩
    rw [hfault] at hok
    cases hok
  · intro h
    cases hok : parseProgram text with
    | error fault => exact ⟨fault, rfl⟩
    | ok read =>
      obtain ⟨hs, hn⟩ := spells_of_parse (parseProgram_eq_ok_iff.1 hok)
      exact absurd (h read hs) (Nat.not_le.2 hn)

end Phrasebook
