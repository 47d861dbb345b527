import Phrasebook.Proofs.Grammar.Soundness
import Phrasebook.Proofs.Grammar.Completeness
import Phrasebook.Proofs.Reader.Relocation
import Phrasebook.Proofs.Scan.Verdict

/-! # Programs line after line

A program ends where a line feed and another text follow it, however it ends: in a word, in
white space, behind a semicolon or in a comment. The text behind the line feed is then read as if it
stood alone, except that its positions are further down.

* `Reader.Reading.finish` — what a whole text is taken for once its commands have been read.
* `parse_line` — reading a program, a line feed and any text.
-/

namespace Phrasebook

namespace Reader

/-- The reading of a whole text, from the commands read and the place where that stopped. -/
def Reading.finish : Reading → Except ParseFault Parse
  | ⟨commands, .endOfText⟩ => .ok ⟨commands, .clean⟩
  | ⟨commands, .closing stop⟩ =>
    .ok ⟨commands, .ofError ⟨.unexpectedFillerClosure, stop.position, []⟩⟩
  | ⟨commands, .failed (.malformed e)⟩ => .ok ⟨commands, .ofError e⟩
  | ⟨_, .failed .tooDeep⟩ => .error .tooDeep

theorem Reading.finish_relocate (f : Position → Position) (reading : Reading) :
    (reading.relocate f).finish = reading.finish.map (Parse.relocate f) := by
  have hending : ∀ (commands : Program) (e : SyntaxError),
      (.ok ⟨commands, .ofError (e.relocate f)⟩ : Except ParseFault Parse)
        = .ok ⟨commands, (Ending.ofError e).relocate f⟩ := fun commands e => by
    rw [Ending.ofError_relocate]
  obtain ⟨commands, stop⟩ := reading
  match stop with
  | .endOfText => rfl
  | .closing stop => exact hending _ ⟨.unexpectedFillerClosure, stop.position, []⟩
  | .failed (.malformed e) => exact hending _ e
  | .failed .tooDeep => rfl

theorem Reading.finish_prepend (commands : Program) (reading : Reading) :
    (reading.prepend commands).finish
      = reading.finish.map fun read => ⟨commands ++ read.program, read.ending⟩ := by
  obtain ⟨others, stop⟩ := reading
  match stop with
  | .endOfText => rfl
  | .closing _ => rfl
  | .failed (.malformed _) => rfl
  | .failed .tooDeep => rfl

end Reader

theorem parse_eq_finish [CallStack] (text : Text) :
    parse text
      = (Reader.program (Reader.atLevel (nestingLimit - 1)) ⟨.start, text⟩).finish := by
  rw [parse, parseWithin, Reader.read_atStart nestingLimit_pos]
  cases Reader.program (Reader.atLevel (nestingLimit - 1)) ⟨.start, text⟩ with
  | mk commands stop =>
    cases stop with
    | endOfText => rfl
    | closing _ => rfl
    | failed fault => cases fault <;> rfl

/-- Behind a program and a line feed, whatever comes is read as it would be by itself: its commands
    follow those of the program, and the reading ends as it would, with every position moved by the
    characters and the lines of the program and its line feed. -/
theorem parse_line [CallStack] {first : Text} {program : Program}
    (h : parse first = .ok ⟨program, .clean⟩) (second : Text) :
    parse (first ++ '\n' :: second) = (parse second).map fun read =>
      let moved := read.relocate (Position.shift (first.length + 1) (first.count '\n' + 1))
      ⟨program ++ moved.program, moved.ending⟩ := by
  obtain ⟨hs, hn⟩ := spells_of_parse h
  obtain ⟨read, -, hwhole, hline⟩ := Reader.program_whole hs (Nat.le_sub_one_of_lt hn) .start
  obtain rfl : read = program := by
    have hread := (parseWithin_eq_clean_iff nestingLimit_pos).2 hwhole
    rw [← parse, h] at hread
    cases hread
    rfl
  let f := Position.shift (first.length + 1) (first.count '\n' + 1)
  have hf : Position.KeepsStep f := Position.shift_keepsStep _ _
  have hsecond : Reader.program (Reader.atLevel (nestingLimit - 1)) ⟨f .start, second⟩
      = (Reader.program (Reader.atLevel (nestingLimit - 1)) ⟨.start, second⟩).relocate f :=
    Reader.program_relocate hf (Reader.atLevel_relocates hf _) ⟨.start, second⟩
  rw [parse_eq_finish, hline, Position.start_advanceOver_line, hsecond,
    Reader.Reading.finish_prepend, Reader.Reading.finish_relocate, ← parse_eq_finish]
  cases parse second <;> rfl

open StandardStack

theorem parse_line_of_comment :
    let first : Text := ['a', '\n', 'b', ' ', '|', '(']
    let second : Text := ['(', 'c', ')', '\n', '{', 'd']
    ∃ program commands, parse first = .ok ⟨program, .clean⟩
      ∧ parse (first ++ '\n' :: second)
        = .ok ⟨program ++ commands, .needsMore ⟨.unclosedString, ⟨11, 4, 0⟩, []⟩⟩
      ∧ program.map Command.position? = [some ⟨0, 1, 0⟩, some ⟨2, 2, 0⟩]
      ∧ commands.map Command.position? = [some ⟨7, 3, 0⟩] := by
  intro first second
  obtain ⟨program, hfirst⟩ : ∃ program, parse first = .ok ⟨program, .clean⟩ :=
    parse_of_ending (by decide +kernel)
  obtain ⟨others, hsecond⟩ : ∃ others,
      parse second = .ok ⟨others, .needsMore ⟨.unclosedString, ⟨4, 2, 0⟩, []⟩⟩ :=
    parse_of_ending (by decide +kernel)
  have hjoined := parse_line hfirst second
  rw [hsecond] at hjoined
  have hown : (parse first).toOption.map (·.program.map Command.position?)
      = some [some ⟨0, 1, 0⟩, some ⟨2, 2, 0⟩] := by
    decide +kernel
  have hall : (parse (first ++ '\n' :: second)).toOption.map (·.program.map Command.position?)
      = some [some ⟨0, 1, 0⟩, some ⟨2, 2, 0⟩, some ⟨7, 3, 0⟩] := by
    decide +kernel
  rw [hfirst] at hown
  rw [hjoined] at hall
  have hplaces : program.map Command.position? = [some ⟨0, 1, 0⟩, some ⟨2, 2, 0⟩] :=
    Option.some.inj hown
  have hplacesAll := (List.map_append ..).symm.trans (Option.some.inj hall)
  rw [hplaces] at hplacesAll
  exact ⟨program, _, hfirst, hjoined, hplaces, List.append_cancel_left hplacesAll⟩

end Phrasebook
