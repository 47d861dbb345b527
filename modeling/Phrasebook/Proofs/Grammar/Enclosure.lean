import Phrasebook.Proofs.Grammar.Juxtaposition
import Phrasebook.Proofs.Scan.Depth

/-! # Programs in parentheses

A text that is read to its end stands for the same program inside a filler, unless a comment at its
end takes the closing parenthesis with it. A line feed before the parenthesis always helps.

* `Text.EndsInComment` — no line feed ends the last comment of the text.
* `Program.ReadsEnclosed` — in parentheses, the text is read as one filler that holds the program.
* `enclosed_reads_alike` — when it is.
-/

namespace Phrasebook

/-! ## Comments that do not end -/

/-- A scan of the text ends inside a comment. -/
def Text.EndsInComment (text : Text) : Prop :=
  ∃ last, Scan.start.run text = .ok last ∧ last.mode = .comment

theorem Scan.Passes.reaches {bound : Nat} {scan last : Scan} {text : Text}
    (h : Passes bound scan text last) (rest : Text) : Reaches scan (text ++ rest) last rest := by
  induction h with
  | nil _ => exact .refl
  | cons _ hs _ ih => exact .step hs ih

theorem Text.OpensWithin.reaches {n : Nat} {text : Text} (h : text.OpensWithin n)
    (opened : List Position) (here : Position) (rest : Text) :
    ∃ after, Scan.Reaches (.normal opened here) (text ++ rest) (.normal opened after) rest := by
  obtain ⟨after, hpasses⟩ := h opened here
  exact ⟨after, hpasses.reaches rest⟩

/-- Behind a program and a bar the scan is in the comment, whatever is open around the program. -/
theorem SpellsProgram.reaches_comment {text comment : Text} {program : Program}
    (h : SpellsProgram text program) (hc : '\n' ∉ comment) (opened : List Position)
    (here : Position) (rest : Text) :
    ∃ after, Scan.Reaches (.normal opened here) (text ++ '|' :: comment ++ rest)
      ⟨after, opened, .comment, none⟩ rest := by
  obtain ⟨bar, hprogram⟩ := h.opensWithin.reaches opened here ('|' :: comment ++ rest)
  have hcomment := Scan.reaches_comment opened hc (bar.advance '|') rest
  rw [List.append_assoc]
  exact ⟨_, hprogram.trans (.step Scan.step_comment hcomment)⟩

theorem SpellsProgram.not_endsInComment {text : Text} {program : Program}
    (h : SpellsProgram text program) : ¬ text.EndsInComment := by
  rintro ⟨last, hlast, hmode⟩
  obtain ⟨after, hprogram⟩ := h.opensWithin.reaches [] .start []
  obtain ⟨head, htext, hrun⟩ := Scan.reaches_iff.1 hprogram
  obtain rfl : text = head := by simpa using htext
  rw [show Scan.start = .normal [] .start from rfl, hrun] at hlast
  cases hlast
  cases hmode

theorem SpellsProgram.endsInComment {text comment : Text} {program : Program}
    (h : SpellsProgram text program) (hc : '\n' ∉ comment) :
    (text ++ '|' :: comment).EndsInComment := by
  obtain ⟨after, hreach⟩ := h.reaches_comment hc [] .start []
  obtain ⟨head, htext, hrun⟩ := Scan.reaches_iff.1 hreach
  obtain rfl : text ++ '|' :: comment = head := by simpa using htext
  exact ⟨_, hrun, rfl⟩

/-! ## Parentheses around a text -/

def Text.parenthesized (text : Text) : Text := '(' :: text ++ [')']

theorem SpellsProgram.spells_parenthesized {text : Text} {program : Program}
    (h : SpellsProgram text program) :
    Spells text.parenthesized [.mk [.filler program none] none] := by
  have hfiller : SpellsPart text.parenthesized (.filler program none) := .filler none h
  have hprogram := SpellsProgram.commands .nil (.last none (.last hfiller)) .nil
  simp only [List.nil_append, List.append_nil] at hprogram
  exact .program hprogram

/-- What is the same as a single filler up to positions is a single filler. -/
theorem Program.exists_filler_of_same {read content : Program} {at? at?' : Option Position}
    (h : Program.same read [.mk [.filler content at?] at?'] = true) :
    ∃ inside here? there?, read = [.mk [.filler inside here?] there?]
      ∧ Program.same inside content = true := by
  match read with
  | [.mk [.filler inside here?] there?] =>
    simp only [Program.same, Command.same, Part.allSame, Part.same, Bool.and_true] at h
    exact ⟨inside, here?, there?, rfl, h⟩
  | [.mk [.word _ _] _] | [.mk [.string _ _] _] | [.mk [.foreign _] _] =>
    simp [Program.same, Command.same, Part.allSame, Part.same] at h
  | [.mk [] _] | [.mk (_ :: _ :: _) _] => simp [Program.same, Command.same, Part.allSame] at h
  | [] | _ :: _ :: _ => simp [Program.same] at h

section

variable [CallStack]

/-- In parentheses the text is a program of one command with one part, a filler that holds the
    program. -/
def Program.ReadsEnclosed (program : Program) (text : Text) : Prop :=
  ∃ content at? at?', parseProgram text.parenthesized = .ok [.mk [.filler content at?] at?']
    ∧ Program.same content program = true

/-- A program with nothing but gaps around it may stand in parentheses. -/
theorem SpellsProgram.readsEnclosed {text : Text} {program : Program}
    (h : SpellsProgram text program) (hn : Program.nesting program + 1 < nestingLimit) :
    program.ReadsEnclosed text := by
  have hnesting : Program.nesting [.mk [.filler program none] none] < nestingLimit := by
    simpa [Program.nesting, Command.nesting, Part.nestingAll, Part.nesting] using hn
  obtain ⟨read, hread, hsame⟩ := parse_clean_iff_spells.2 ⟨h.spells_parenthesized, hnesting⟩
  obtain ⟨content, at?, at?', rfl, hcontent⟩ := Program.exists_filler_of_same hsame
  exact ⟨content, at?, at?', parseProgram_eq_ok_iff.2 hread, hcontent⟩

/-- A comment that does not end before the parenthesis leaves the filler open. -/
theorem SpellsProgram.not_readsEnclosed_comment {text comment : Text} {program other : Program}
    (h : SpellsProgram text program) (hc : '\n' ∉ comment) :
    ¬ other.ReadsEnclosed (text ++ '|' :: comment) := by
  rintro ⟨content, at?, at?', hread, -⟩
  have hclean := ending_eq_verdict (parseProgram_eq_ok_iff.1 hread)
  have hopen : Scan.Reaches .start (text ++ '|' :: comment).parenthesized
      (.normal [.start] (Position.start.advance '(')) (text ++ '|' :: comment ++ [')']) :=
    .single Scan.step_fillerOpen _
  obtain ⟨after, hcomment⟩ := h.reaches_comment hc [.start] (Position.start.advance '(') [')']
  rw [(hopen.trans hcomment).verdict_eq] at hclean
  cases hclean

/-! ## Whole texts -/

/-- A text that is read to its end, its fillers one level further from the limit, is read as the
    same program in parentheses: always on a line that ends before the closing one, and right before
    it exactly if the text does not end in a comment. -/
theorem enclosed_reads_alike {inner : Text} {program : Program}
    (h : parse inner = .ok ⟨program, .clean⟩) (hn : Program.nesting program + 1 < nestingLimit) :
    program.ReadsEnclosed (inner ++ ['\n'])
      ∧ (program.ReadsEnclosed inner ↔ ¬ inner.EndsInComment) := by
  obtain ⟨hs, -⟩ := spells_of_parse h
  cases hs with
  | program hs =>
    have hline : SpellsProgram (inner ++ ['\n']) program :=
      hs.append_gap (.char (.inl isBlank_lineFeed) .nil)
    exact ⟨hline.readsEnclosed hn, fun _ => hs.not_endsInComment, fun _ => hs.readsEnclosed hn⟩
  | @comment text comment _ hs hc =>
    have hline : SpellsProgram (text ++ ('|' :: comment ++ ['\n'])) program :=
      hs.append_gap (.comment hc .nil)
    have hends := hs.endsInComment hc
    refine ⟨?_, fun hread => absurd hread (hs.not_readsEnclosed_comment hc),
      fun hnot => absurd hends hnot⟩
    rw [List.append_assoc]
    exact hline.readsEnclosed hn

end

open StandardStack

/-- The last word of the text is an escaped parenthesis, and the comment behind it would take the
    closing one with it. -/
theorem enclosed_reads_alike_of_comment :
    let inner : Text := "a (b\n|)\n\x7b)\x7d); \\)| c".toList
    ∃ program, parse inner = .ok ⟨program, .clean⟩
      ∧ Program.nesting program + 1 < nestingLimit
      ∧ program.ReadsEnclosed (inner ++ ['\n'])
      ∧ ¬ program.ReadsEnclosed inner := by
  intro inner
  have hlook : (parse inner).toOption.map (fun read => (read.ending, Program.nesting read.program))
      = some (.clean, 1) := by
    decide +kernel
  obtain ⟨⟨program, ending⟩, hread, hseen⟩ := except_eq_ok_of_map hlook
  obtain ⟨rfl, hnesting⟩ := Prod.mk.inj hseen
  have hn : Program.nesting program + 1 < nestingLimit := by
    rw [hnesting]
    decide
  obtain ⟨hline, hiff⟩ := enclosed_reads_alike hread hn
  have hends : inner.EndsInComment := by
    have hmode : (Scan.start.run inner).toOption.map Scan.mode = some .comment := by
      decide +kernel
    exact except_eq_ok_of_map hmode
  exact ⟨program, hread, hn, hline, fun henclosed => hiff.1 henclosed hends⟩

end Phrasebook
