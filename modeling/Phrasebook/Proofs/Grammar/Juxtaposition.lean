import Phrasebook.Proofs.Grammar.Exactness

/-! # Programs one behind the other

A text behind another, with something between the two that ends a command, spells the commands of
both in order.

* `Gap.separator`, `Separator.append` — separators put together from pieces.
* `SpellsCommands.append`, `SpellsProgram.append` — commands of both texts.
* `SpellsProgram.append_gap` — a gap behind a program.
* `Spells.append_lineFeed` — whole texts on lines of their own; a comment at the end of the first
  ends with its line.
* `parse_append_lineFeed` — the same for texts that are read to their ends.
-/

namespace Phrasebook

/-! ## Separators in pieces -/

/-- A separator ends a command also behind a gap. -/
theorem Gap.separator {gap separator : Text} (hg : Gap gap) (hs : Separator separator) :
    Separator (gap ++ separator) := by
  induction hg with
  | nil => exact hs
  | @char c gap hc hg ih =>
    rcases hc with hc | rfl
    · exact .blank hc ih
    · exact .terminator (.inl rfl) (hg.append hs.gap)
  | @comment comment gap hc hg ih =>
    have hsplit : ('|' :: comment ++ '\n' :: gap) ++ separator
        = '|' :: comment ++ '\n' :: (gap ++ separator) := by simp
    rw [hsplit]
    exact .comment hc (hg.append hs.gap)

theorem Separator.append {separator gap : Text} (hs : Separator separator) (hg : Gap gap) :
    Separator (separator ++ gap) := by
  induction hs with
  | terminator hc hrest => exact .terminator hc (hrest.append hg)
  | blank hc _ ih => exact .blank hc ih
  | @comment comment rest hc hrest =>
    have hsplit : ('|' :: comment ++ '\n' :: rest) ++ gap
        = '|' :: comment ++ '\n' :: (rest ++ gap) := by simp
    rw [hsplit]
    exact .comment hc (hrest.append hg)

/-! ## Programs -/

theorem SpellsCommands.append {first separator second : Text} {commands others : List Command}
    (h : SpellsCommands first commands) (hs : Separator separator)
    (ho : SpellsCommands second others) :
    SpellsCommands (first ++ (separator ++ second)) (commands ++ others) := by
  induction h using SpellsCommands.commands_induction with
  | last at? hp =>
    cases others with
    | nil => cases ho
    | cons next others => exact .more at? hp hs ho
  | more at? hp hb _ ih =>
    have hmore := SpellsCommands.more at? hp hb ih
    simpa using hmore

theorem SpellsProgram.append_gap {text gap : Text} {commands : List Command}
    (h : SpellsProgram text commands) (hg : Gap gap) : SpellsProgram (text ++ gap) commands := by
  cases h with
  | empty ht => exact .empty (ht.append hg)
  | @commands before spelling after _ hb hs ha =>
    have hall := SpellsProgram.commands hb hs (ha.append hg)
    simpa using hall

/-- Two programs with a separator between them are one. -/
theorem SpellsProgram.append {first separator second : Text} {commands others : List Command}
    (h : SpellsProgram first commands) (hs : Separator separator)
    (ho : SpellsProgram second others) :
    SpellsProgram (first ++ (separator ++ second)) (commands ++ others) := by
  cases h with
  | empty hg =>
    have hall := ho.gap (hg.append hs.gap)
    simpa using hall
  | @commands before spelling after commands hb hc ha =>
    cases ho with
    | empty hg =>
      have hall := SpellsProgram.commands hb hc (ha.append (hs.append hg).gap)
      simpa using hall
    | @commands before' spelling' after' others hb' hc' ha' =>
      -- All that stands between the last command of the first and the first of the second.
      have hbetween : Separator (after ++ (separator ++ before')) := ha.separator (hs.append hb')
      have hall := SpellsProgram.commands hb (hc.append hbetween hc') ha'
      simpa using hall

/-! ## Whole texts -/

/-- Two texts, the second on a new line, spell what they spell one after the other. -/
theorem Spells.append_lineFeed {first second : Text} {program other : Program}
    (h : Spells first program) (ho : Spells second other) :
    Spells (first ++ '\n' :: second) (program ++ other) := by
  -- With the line feed, what the first text has behind its program is a separator.
  obtain ⟨text, separator, hfirst, hp, hs⟩ : ∃ text separator, first ++ ['\n'] = text ++ separator
      ∧ SpellsProgram text program ∧ Separator separator := by
    cases h with
    | program hp => exact ⟨first, ['\n'], rfl, hp, .terminator (.inr rfl) .nil⟩
    | @comment text comment _ hp hc =>
      exact ⟨text, '|' :: comment ++ ['\n'], by simp, hp, .comment hc .nil⟩
  have hsplit : ∀ rest, first ++ '\n' :: rest = text ++ (separator ++ rest) := by
    intro rest
    rw [← List.append_assoc, ← hfirst]
    simp
  cases ho with
  | program ho =>
    rw [hsplit]
    exact .program (hp.append hs ho)
  | @comment second comment _ ho hc =>
    have hall := Spells.comment (hp.append hs ho) hc
    show Spells (first ++ '\n' :: (second ++ '|' :: comment)) _
    rw [hsplit]
    simpa using hall

/-- Two texts that are read to their ends, the second on a new line, are read as one program. -/
theorem parse_append_lineFeed [CallStack] {first second : Text} {program other : Program}
    (h : parse first = .ok ⟨program, .clean⟩) (ho : parse second = .ok ⟨other, .clean⟩) :
    ∃ read, parse (first ++ '\n' :: second) = .ok ⟨read, .clean⟩
      ∧ Program.same read (program ++ other) = true := by
  obtain ⟨hs, hn⟩ := spells_of_parse h
  obtain ⟨hs', hn'⟩ := spells_of_parse ho
  refine parse_clean_iff_spells.2 ⟨hs.append_lineFeed hs', ?_⟩
  rw [Program.nesting_append]
  exact Nat.max_lt.2 ⟨hn, hn'⟩

end Phrasebook
