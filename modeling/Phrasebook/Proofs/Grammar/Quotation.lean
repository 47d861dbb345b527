import Phrasebook.Proofs.Grammar.RoundTrip
import Phrasebook.Value

/-! # Quoting a text

* `Text.Quotes` — a text between braces is read as the string of that text, and as nothing else.
* `Text.quotes_iff` — the texts that can be quoted are those whose braces are balanced.
* `Text.Balanced.append`, `Text.Balanced.braced`, `Text.Balanced.intercalate` — how such texts are
  put together.
* `Program.render_quotes` — the text of a program whose strings are balanced can be quoted.
-/

namespace Phrasebook

/-! ## Texts that can be quoted -/

/-- In braces the text is a program of one command, whose one part is the string of the text. -/
def Text.Quotes [CallStack] (text : Text) : Prop :=
  parse text.braced = .ok ⟨[.mk [.string text (some .start)] (some .start)], .clean⟩

/-- A string between braces, alone on its line, is a whole program. -/
theorem Reader.program_string {level : Level} {text : Text} (hb : text.Balanced)
    (here : Position) :
    program level ⟨here, text.braced⟩
      = ⟨[.mk [.string text (some here)] (some here)], .endOfText⟩ := by
  have hpart := @part_string level text hb here []
  rw [List.append_nil] at hpart
  have hmore : moreParts level ⟨here, text.braced⟩
      = .ok ([.string text (some here)], ⟨here.advanceOver text.braced, []⟩) := by
    rw [moreParts_of_part_eq_some hpart, moreParts_of_rest_eq_nil rfl]
    rfl
  rw [program_of_command_eq_some (command_of_moreParts hpart hmore), program_nil]
  rfl

theorem Text.quotes_iff [CallStack] {text : Text} : text.Quotes ↔ text.Balanced := by
  constructor
  · intro h
    exact (spells_of_parse h).1.every.1.1.balanced
  · intro hb
    exact (parseWithin_eq_clean_iff nestingLimit_pos).2 (Reader.program_string hb .start)

/-! ## Balanced texts -/

namespace Text

/-- Behind a text, the count of open braces goes on from what the text has left open. -/
theorem openBraces_append {nesting left : Nat} {text : Text}
    (h : text.openBraces nesting = some left) (rest : Text) :
    openBraces nesting (text ++ rest) = openBraces left rest := by
  fun_induction openBraces nesting text with
  | case1 nesting =>
    cases h
    rfl
  | case2 => cases h
  | case3 nesting d tail ih => exact ih h
  | case4 nesting tail _ ih => rw [List.cons_append, openBraces_open, ih h]
  | case5 => cases h
  | case6 tail nesting _ _ ih => rw [List.cons_append, openBraces_close, ih h]
  | case7 nesting c tail he ho hc ih => rw [List.cons_append, openBraces_cons he ho hc, ih h]

/-- Braces that are open from before stay open. -/
theorem openBraces_add {nesting left : Nat} {text : Text}
    (h : text.openBraces nesting = some left) (outer : Nat) :
    text.openBraces (nesting + outer) = some (left + outer) := by
  fun_induction openBraces nesting text with
  | case1 nesting =>
    cases h
    rfl
  | case2 => cases h
  | case3 nesting d tail ih => exact ih h
  | case4 nesting tail _ ih =>
    rw [openBraces_open, Nat.add_right_comm]
    exact ih h
  | case5 => cases h
  | case6 tail nesting _ _ ih =>
    rw [Nat.succ_add, openBraces_close]
    exact ih h
  | case7 nesting c tail he ho hc ih =>
    rw [openBraces_cons he ho hc]
    exact ih h

namespace Balanced

theorem nil : Balanced [] := rfl

theorem append {text other : Text} (h : text.Balanced) (ho : other.Balanced) :
    Balanced (text ++ other) :=
  (openBraces_append h other).trans ho

/-- A character that means nothing in a string changes nothing. -/
theorem cons {c : Char} {text : Text} (he : c ≠ '\\') (ho : c ≠ '{') (hc : c ≠ '}')
    (h : text.Balanced) : Balanced (c :: text) :=
  (openBraces_cons he ho hc 0 text).trans h

theorem escaped {text : Text} (c : Char) (h : text.Balanced) : Balanced ('\\' :: c :: text) := h

theorem braced {text : Text} (h : text.Balanced) : text.braced.Balanced := by
  have hinner : openBraces 1 text = some 1 := openBraces_add h 1
  rw [Balanced, Text.braced, List.cons_append, openBraces_open, openBraces_append hinner]
  rfl

theorem intercalate {separator : Text} (hs : separator.Balanced) :
    ∀ {texts : List Text}, (∀ text ∈ texts, text.Balanced) →
      Balanced (List.intercalate separator texts)
  | [], _ => nil
  | [text], h => by
    rw [List.intercalate_singleton]
    exact h text List.mem_cons_self
  | text :: next :: texts, h => by
    obtain ⟨htext, hrest⟩ := List.forall_mem_cons.1 h
    rw [List.intercalate_cons_cons]
    exact (htext.append hs).append (intercalate hs hrest)

theorem escapeWord : ∀ text : Text, text.escapeWord.Balanced
  | [] => nil
  | c :: text => by
    rw [Text.escapeWord]
    split
    · next hplain =>
      have hnot : ∀ (mark : Mark) (d : Char), mark.char? = some d → mark ≠ .plain → c ≠ d :=
        fun mark d hd hm hc => hm ((Mark.of_eq_iff hd).2 hc ▸ hplain)
      exact cons (hnot .escape _ rfl (by decide)) (hnot .stringOpen _ rfl (by decide))
        (hnot .stringClose _ rfl (by decide)) (escapeWord text)
    · exact escaped c (escapeWord text)

end Balanced

end Text

/-! ## The text of a program -/

mutual

theorem Part.render_balanced : ∀ part : Part, part.Every Part.Native → part.Every Part.Balanced →
    part.render.Balanced
  | .word text _, _, _ => .escapeWord text
  | .string _ _, _, hb => .braced hb
  | .filler content _, hn, hb => by
    have hinner : Text.Balanced (List.intercalate fillerSeparator (Program.renderEach content)) :=
      .intercalate (by decide) (Program.renderEach_balanced content hn.2 hb.2)
    exact .cons (by decide) (by decide) (by decide) (hinner.append (by decide))
  | .foreign _, hn, _ => hn.elim

theorem Part.renderEach_balanced : ∀ parts : List Part, Part.AllEvery Part.Native parts →
    Part.AllEvery Part.Balanced parts → ∀ text ∈ Part.renderEach parts, text.Balanced
  | part :: parts, hn, hb, _, hmem => by
    obtain rfl | hmem := List.mem_cons.1 hmem
    · exact Part.render_balanced part hn.1 hb.1
    · exact Part.renderEach_balanced parts hn.2 hb.2 _ hmem

theorem Command.render_balanced : ∀ command : Command, command.Every Part.Native →
    command.Every Part.Balanced → command.render.Balanced
  | .mk parts _, hn, hb => .intercalate (by decide) (Part.renderEach_balanced parts hn hb)

theorem Program.renderEach_balanced : ∀ program : List Command,
    Program.Every Part.Native program → Program.Every Part.Balanced program →
    ∀ text ∈ Program.renderEach program, text.Balanced
  | command :: commands, hn, hb, _, hmem => by
    obtain rfl | hmem := List.mem_cons.1 hmem
    · exact Command.render_balanced command hn.1 hb.1
    · exact Program.renderEach_balanced commands hn.2 hb.2 _ hmem

end

/-- What separates commands leaves no brace open. -/
theorem IsCommandSeparator.balanced {separator : Text} (h : IsCommandSeparator separator) :
    separator.Balanced := by
  obtain ⟨hall, -⟩ := h
  induction separator with
  | nil => exact .nil
  | cons c separator ih =>
    obtain ⟨hc, hrest⟩ := List.forall_mem_cons.1 hall
    have hnot : ∀ d, isBlank d = false → d ≠ ';' → c ≠ d := by
      rintro d hblank hsemicolon rfl
      rw [hblank] at hc
      exact hc.elim nofun hsemicolon
    exact .cons (hnot _ (by decide) (by decide)) (hnot _ (by decide) (by decide))
      (hnot _ (by decide) (by decide)) (ih hrest)

/-- However its commands are separated, the text of a program whose strings are balanced can be
    quoted. -/
theorem Program.render_quotes [CallStack] {separator : Text}
    (hs : IsCommandSeparator separator) {program : Program} (hn : Program.Every Part.Native program)
    (hb : Program.Every Part.Balanced program) : (Program.render separator program).Quotes :=
  Text.quotes_iff.2 (.intercalate hs.balanced (Program.renderEach_balanced program hn hb))

end Phrasebook
