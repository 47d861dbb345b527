import Phrasebook.Proofs.Grammar.Boundaries

/-! # What the grammar derives is read

A text that spells a program is read as that program, whatever the positions and whatever comes
behind it, as long as the text behind it lets the last command end and the fillers do not nest
deeper than the reader follows.

* `Reader.word_spelled`, `Reader.quoted_balanced` — words and strings.
* `Reader.moreParts_blanks`, `Reader.program_gap` — what stands between is passed over.
* `Reader.part_spelled`, `Reader.moreParts_spelled`, `Reader.program_commands`,
  `Reader.program_spelled` — the tree, by mutual induction on the spelling.
* `parse_of_spells` — whole texts.
-/

namespace Phrasebook

namespace Reader

/-! ## Words and strings -/

theorem word_spelled {spelling text rest : Text} (h : SpellsWord spelling text)
    (hr : EndsWord rest) (here : Position) :
    word here (spelling ++ rest) = .ok (text, ⟨here.advanceOver spelling, rest⟩) := by
  induction h generalizing here with
  | nil => exact word_of_endsWord hr here
  | @bare c spelling text hc _ ih =>
    simp only [List.cons_append, word, isBare_iff.1 hc, ih, Step.cons, Position.advanceOver_cons]
  | @escaped c spelling text _ ih =>
    have he : Mark.of '\\' = .escape := Mark.of_char rfl
    simp only [List.cons_append, word, he, ih, Step.cons, Position.advanceOver_cons]

/-- A text that leaves no brace open is read up to the brace behind it. -/
theorem quoted_balanced {nesting : Nat} {text : Text} (h : text.openBraces nesting = some 0)
    (opening here : Position) (rest : Text) :
    quoted opening nesting here (text ++ '}' :: rest)
      = .ok (text, ⟨(here.advanceOver text).advance '}', rest⟩) := by
  have hopen : Mark.of '{' = .stringOpen := Mark.of_char rfl
  have hclose : Mark.of '}' = .stringClose := Mark.of_char rfl
  have hescape : Mark.of '\\' = .escape := Mark.of_char rfl
  fun_induction Text.openBraces nesting text generalizing here with
  | case1 nesting =>
    obtain rfl : nesting = 0 := by simpa using h
    simp [quoted, hclose]
  | case2 => simp at h
  | case3 nesting d rest ih => simp [quoted, hescape, ih h, Step.cons]
  | case4 nesting rest _ ih => simp [quoted, hopen, ih h, Step.cons]
  | case5 => simp at h
  | case6 rest nesting _ _ ih => simp [quoted, hclose, ih h, Step.cons]
  | case7 nesting c rest he ho hc ih =>
    have hq := quoted_cons (mt (Mark.of_eq_iff rfl).1 he) (mt (Mark.of_eq_iff rfl).1 ho)
      (mt (Mark.of_eq_iff rfl).1 hc) opening here nesting
    rw [List.cons_append, hq, ih h]
    rfl

variable {level : Level}

/-! ## What stands between -/

theorem moreParts_blanks {blanks : Text} (hb : Blanks blanks) (here : Position) (rest : Text) :
    moreParts level ⟨here, blanks ++ rest⟩
      = moreParts level ⟨here.advanceOver blanks, rest⟩ := by
  induction blanks generalizing here with
  | nil => rfl
  | cons c blanks ih =>
    obtain ⟨hc, hrest⟩ := List.forall_mem_cons.1 hb
    have hm := Mark.of_eq_blank.2 hc
    rw [List.cons_append, moreParts_of_part_eq_none (part_eq_none hm rfl here _), mark?_cons, hm]
    exact ih hrest (here.advance c)

/-- Where a command ends there are no further parts, and what the command takes with it makes no
    difference to the program. -/
theorem moreParts_endsCommand {rest : Text} (h : EndsCommand rest) (here : Position) :
    ∃ stop, moreParts level ⟨here, rest⟩ = .ok ([], stop)
      ∧ program level stop = program level ⟨here, rest⟩ := by
  induction h generalizing here with
  | nil => exact ⟨⟨here, []⟩, moreParts_of_part_eq_none rfl, rfl⟩
  | @mark c rest hm =>
    -- Only a terminator is taken along, and the program would skip it in any case.
    rcases hm with hm | hm | hm
    · refine ⟨⟨here.advance c, rest⟩, ?_, (program_skip (.inr hm) here rest).symm⟩
      rw [moreParts_of_part_eq_none (part_eq_none hm rfl here rest), mark?_cons, hm]
      rfl
    · refine ⟨⟨here, c :: rest⟩, ?_, rfl⟩
      rw [moreParts_of_part_eq_none (part_eq_none hm rfl here rest), mark?_cons, hm]
    · refine ⟨⟨here, c :: rest⟩, ?_, rfl⟩
      rw [moreParts_of_part_eq_none (part_eq_none hm rfl here rest), mark?_cons, hm]
  | @blank c rest hm _ ih =>
    obtain ⟨stop, hs, hp⟩ := ih (here.advance c)
    refine ⟨stop, ?_, ?_⟩
    · rw [moreParts_of_part_eq_none (part_eq_none hm rfl here rest), mark?_cons, hm]
      exact hs
    · rw [hp, program_skip (.inl hm)]

theorem program_gap {gap : Text} (hg : Gap gap) (here : Position) (rest : Text) :
    program level ⟨here, gap ++ rest⟩ = program level ⟨here.advanceOver gap, rest⟩ := by
  have hn : Mark.of '\n' = .terminator := Mark.of_eq_terminator.2 (.inl rfl)
  induction hg generalizing here with
  | nil => rfl
  | @char c gap hc _ ih =>
    rw [List.cons_append, program_skip (skipped_iff.1 hc), ih]
    rfl
  | @comment comment gap hc _ ih =>
    have hsplit : ('|' :: comment ++ '\n' :: gap) ++ rest
        = '|' :: comment ++ '\n' :: (gap ++ rest) := by simp
    rw [hsplit, program_comment hc (by simp), program_skip (.inr hn), ih]
    simp [Position.advanceOver]

/-! ## The tree -/

/-- A command whose parts are read one by one is read as a whole. -/
theorem command_of_moreParts {cursor after stop : Cursor} {first : Part} {parts : List Part}
    (hp : part level cursor = some (.ok (first, after)))
    (hm : moreParts level cursor = .ok (parts, stop)) :
    command level cursor = some (.ok (.mk parts (some cursor.position), stop)) := by
  rw [← part_position? hp]
  rw [moreParts_of_part_eq_some hp] at hm
  obtain ⟨rest, hr, rfl⟩ := Step.cons_eq_ok hm
  simp only [command, hp, hr]

/-- Puts commands in front of a reading. -/
def Reading.prepend (commands : Program) (reading : Reading) : Reading :=
  { reading with commands := commands ++ reading.commands }

theorem part_word {spelling text rest : Text} (hw : SpellsWord spelling text) (hne : text ≠ [])
    (hr : EndsWord rest) (here : Position) :
    part level ⟨here, spelling ++ rest⟩
      = some (.ok (.word text (some here), ⟨here.advanceOver spelling, rest⟩)) := by
  have hread := word_spelled hw hr here
  -- The first character alone sends the reader to words.
  obtain ⟨c, tail, rfl, -, hc⟩ := (SpellsPart.word none hw hne).head
  replace hc : (Mark.of c).inWord = true := hc
  rw [List.cons_append] at hread ⊢
  rw [part, mark?_cons]
  cases hm : Mark.of c <;> simp_all [Mark.inWord, bareWord]

theorem part_string {text : Text} (hb : text.Balanced) (here : Position) (rest : Text) :
    part level ⟨here, text.braced ++ rest⟩
      = some (.ok (.string text (some here), ⟨here.advanceOver text.braced, rest⟩)) := by
  have hm : Mark.of '{' = .stringOpen := Mark.of_char rfl
  have hread := quoted_balanced hb here (here.advance '{') rest
  have hsplit : text.braced ++ rest = '{' :: (text ++ '}' :: rest) := by simp [Text.braced]
  rw [hsplit, part, mark?_cons, hm]
  simp [string, hread, Text.braced, Position.advanceOver]

/-- A filler is read if the program inside it is read up to its closing parenthesis. -/
theorem part_filler {inner rest : Text} {here : Position} {content : Program}
    (h : level.read ⟨here.advance '(', inner ++ ')' :: rest⟩
      = ⟨content, .closing ⟨(here.advance '(').advanceOver inner, ')' :: rest⟩⟩) :
    part level ⟨here, '(' :: inner ++ [')'] ++ rest⟩
      = some (.ok (.filler content (some here),
          ⟨here.advanceOver ('(' :: inner ++ [')']), rest⟩)) := by
  have hm : Mark.of '(' = .fillerOpen := Mark.of_char rfl
  have hsplit : '(' :: inner ++ [')'] ++ rest = '(' :: (inner ++ ')' :: rest) := by simp
  rw [hsplit, part, mark?_cons, hm]
  simp [filler, h, Position.advanceOver]

theorem program_closing {rest : Text} (here : Position) :
    program level ⟨here, ')' :: rest⟩ = ⟨[], .closing ⟨here, ')' :: rest⟩⟩ := by
  have hm : Mark.of ')' = .fillerClose := Mark.of_char rfl
  have hp : part level ⟨here, ')' :: rest⟩ = none := part_eq_none hm rfl here rest
  rw [program_of_command_eq_none (command_eq_none_iff.2 hp), mark?_cons, hm]

mutual

theorem part_spelled {spelling : Text} {piece : Part} (h : SpellsPart spelling piece) {n : Nat}
    (hn : piece.nesting ≤ n) (here : Position) :
    ∃ read, read.erase = piece.erase ∧ ∀ rest, (piece.isWord = true → EndsWord rest) →
      part (atLevel n) ⟨here, spelling ++ rest⟩
        = some (.ok (read, ⟨here.advanceOver spelling, rest⟩)) := by
  match h with
  | .word _ hw hne =>
    exact ⟨.word _ (some here), rfl, fun _ hr => part_word hw hne (hr rfl) here⟩
  | .string _ hb => exact ⟨.string _ (some here), rfl, fun rest _ => part_string hb here rest⟩
  | @SpellsPart.filler inner content _ hs =>
    -- The program inside is read one level below, where the depth is less by one as well.
    obtain ⟨m, rfl⟩ : ∃ m, n = m + 1 := ⟨n - 1, by simp only [Part.nesting] at hn; omega⟩
    have hm : Program.nesting content ≤ m := by simpa [Part.nesting] using hn
    obtain ⟨read, he, hread⟩ := program_spelled hs hm (here.advance '(')
    refine ⟨.filler read (some here), by simp only [Part.erase, he], fun rest _ => part_filler ?_⟩
    rw [atLevel_succ_read, hread _ (.mark (.inr (.inr (Mark.of_char rfl)))), program_closing]
    simp [Reading.prepend]

theorem moreParts_spelled {spelling : Text} {parts : List Part} (h : SpellsParts spelling parts)
    {n : Nat} (hn : Part.nestingAll parts ≤ n) (here : Position) :
    ∃ read, Part.eraseAll read = Part.eraseAll parts ∧ ∀ rest, EndsCommand rest →
      ∃ first after stop,
        part (atLevel n) ⟨here, spelling ++ rest⟩ = some (.ok (first, after)) ∧
        moreParts (atLevel n) ⟨here, spelling ++ rest⟩ = .ok (read, stop) ∧
        program (atLevel n) stop = program (atLevel n) ⟨here.advanceOver spelling, rest⟩ := by
  match h with
  | @SpellsParts.last _ piece hp =>
    have hpn : piece.nesting ≤ n := Nat.le_trans (Nat.le_max_left _ _) hn
    obtain ⟨first, he, hread⟩ := part_spelled hp hpn here
    refine ⟨[first], by simp only [Part.eraseAll, he], fun rest hr => ?_⟩
    obtain ⟨stop, hs, hprog⟩ := @moreParts_endsCommand (atLevel n) _ hr
      (here.advanceOver spelling)
    replace hread := hread rest fun _ => hr.endsWord
    refine ⟨first, _, stop, hread, ?_, hprog⟩
    rw [moreParts_of_part_eq_some hread, hs]
    rfl
  | @SpellsParts.more text blanks others piece next parts hp hb hw hrest =>
    have hpn : piece.nesting ≤ n := Nat.le_trans (Nat.le_max_left _ _) hn
    have hon : Part.nestingAll (next :: parts) ≤ n := Nat.le_trans (Nat.le_max_right _ _) hn
    obtain ⟨first, he, hread⟩ := part_spelled hp hpn here
    obtain ⟨read, hes, hfurther⟩ :=
      moreParts_spelled hrest hon ((here.advanceOver text).advanceOver blanks)
    refine ⟨first :: read, by simp only [Part.eraseAll, he, hes], fun rest hr => ?_⟩
    obtain ⟨_, _, stop, _, hmore, hprog⟩ := hfurther rest hr
    -- The spelling of the further parts tells the reader that a word before them is over.
    replace hread := hread (blanks ++ (others ++ rest)) fun hword =>
      hrest.endsWord_blanks hb (hw hword) rest
    have hsplit : text ++ (blanks ++ others) ++ rest
      = text ++ (blanks ++ (others ++ rest)) := by simp
    rw [hsplit]
    refine ⟨first, _, stop, hread, ?_, ?_⟩
    · rw [moreParts_of_part_eq_some hread, moreParts_blanks hb, hmore]
      rfl
    · rw [hprog]
      simp [Position.advanceOver]

theorem program_commands {spelling : Text} {commands : List Command}
    (h : SpellsCommands spelling commands) {n : Nat} (hn : Program.nesting commands ≤ n)
    (here : Position) :
    ∃ read, Program.erase read = Program.erase commands ∧ ∀ rest, EndsCommand rest →
      program (atLevel n) ⟨here, spelling ++ rest⟩
        = (program (atLevel n) ⟨here.advanceOver spelling, rest⟩).prepend read := by
  match h with
  | @SpellsCommands.last _ parts _ hp =>
    have hpn : Part.nestingAll parts ≤ n := by
      simpa only [Program.nesting, Command.nesting, Nat.max_zero] using hn
    obtain ⟨read, he, hparts⟩ := moreParts_spelled hp hpn here
    refine ⟨[.mk read (some here)], by simp only [Program.erase, Command.erase, he],
      fun rest hr => ?_⟩
    obtain ⟨first, after, stop, hpart, hmore, hprog⟩ := hparts rest hr
    rw [program_of_command_eq_some (command_of_moreParts hpart hmore), hprog]
    rfl
  | @SpellsCommands.more text separator others parts at? next commands hp hs hrest =>
    have hpn : Part.nestingAll parts ≤ n := Nat.le_trans (Nat.le_max_left _ _) hn
    have hon : Program.nesting (next :: commands) ≤ n := Nat.le_trans (Nat.le_max_right _ _) hn
    obtain ⟨read, he, hparts⟩ := moreParts_spelled hp hpn here
    obtain ⟨others', heo, hothers⟩ :=
      program_commands hrest hon ((here.advanceOver text).advanceOver separator)
    refine ⟨.mk read (some here) :: others',
      by simp only [Program.erase, Command.erase, he, heo], fun rest hr => ?_⟩
    -- The separator ends the command, and whatever of it the command takes is skipped anyway.
    obtain ⟨first, after, stop, hpart, hmore, hprog⟩ := hparts _ (hs.endsCommand (others ++ rest))
    have hsplit : text ++ (separator ++ others) ++ rest
      = text ++ (separator ++ (others ++ rest)) := by simp
    rw [hsplit, program_of_command_eq_some (command_of_moreParts hpart hmore), hprog,
      program_gap hs.gap, hothers rest hr]
    simp [Reading.cons, Reading.prepend, Position.advanceOver]

theorem program_spelled {spelling : Text} {commands : List Command}
    (h : SpellsProgram spelling commands) {n : Nat} (hn : Program.nesting commands ≤ n)
    (here : Position) :
    ∃ read, Program.erase read = Program.erase commands ∧ ∀ rest, EndsCommand rest →
      program (atLevel n) ⟨here, spelling ++ rest⟩
        = (program (atLevel n) ⟨here.advanceOver spelling, rest⟩).prepend read := by
  match h with
  | .empty hg => exact ⟨[], rfl, fun rest _ => program_gap hg here rest⟩
  | @SpellsProgram.commands before text after commands hb hs ha =>
    obtain ⟨read, he, hread⟩ := program_commands hs hn (here.advanceOver before)
    refine ⟨read, he, fun rest hr => ?_⟩
    have hsplit : before ++ (text ++ after) ++ rest = before ++ (text ++ (after ++ rest)) := by simp
    rw [hsplit, program_gap hb, hread _ (ha.endsCommand hr), program_gap ha]
    simp [Position.advanceOver]

end

/-- A text that spells a program is read to its end, as that program. With a line feed and more
    behind it, the same commands are read, and then those of what comes behind the line feed. -/
theorem program_whole {text : Text} {commands : Program} (h : Spells text commands) {n : Nat}
    (hn : Program.nesting commands ≤ n) (here : Position) :
    ∃ read, Program.erase read = Program.erase commands ∧
      program (atLevel n) ⟨here, text⟩ = ⟨read, .endOfText⟩ ∧
      ∀ more, program (atLevel n) ⟨here, text ++ '\n' :: more⟩
        = (program (atLevel n) ⟨here.advanceOver (text ++ ['\n']), more⟩).prepend read := by
  have hline : Mark.of '\n' = .terminator := Mark.of_eq_terminator.2 (.inl rfl)
  cases h with
  | program hs =>
    obtain ⟨read, he, hread⟩ := program_spelled hs hn here
    refine ⟨read, he, ?_, fun more => ?_⟩
    · have hend := hread [] .nil
      rw [List.append_nil, program_nil] at hend
      simpa [Reading.prepend] using hend
    · rw [hread _ (.mark (.inl hline)), program_skip (.inr hline)]
      simp [Position.advanceOver]
  | @comment text comment _ hs hc =>
    -- A comment ends a command, whether a line feed is behind it or nothing.
    have hends : ∀ rest, EndsCommand ('|' :: comment ++ rest) :=
      fun _ => .mark (.inr (.inl (Mark.of_char rfl)))
    obtain ⟨read, he, hread⟩ := program_spelled hs hn here
    refine ⟨read, he, ?_, fun more => ?_⟩
    · have hend := hread _ (hends [])
      rw [program_comment hc (by simp), List.append_nil, program_nil] at hend
      simpa [Reading.prepend] using hend
    · have hend := hread _ (hends ('\n' :: more))
      rw [program_comment hc (by simp), program_skip (.inr hline)] at hend
      simpa [Position.advanceOver] using hend

end Reader

/-- A text that spells a program is read to its end, as that program up to positions. -/
theorem parse_of_spells {levels : Nat} {text : Text} {program : Program} (h : Spells text program)
    (hn : Program.nesting program < levels) :
    ∃ read, parseWithin levels text = .ok ⟨read, .clean⟩
      ∧ Program.erase read = Program.erase program := by
  obtain ⟨read, he, hread, -⟩ := Reader.program_whole h (Nat.le_sub_one_of_lt hn) .start
  exact ⟨read, (parseWithin_eq_clean_iff (Nat.zero_lt_of_lt hn)).2 hread, he⟩

end Phrasebook
