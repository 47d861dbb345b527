import Phrasebook.Proofs.Grammar.Completeness
import Phrasebook.Proofs.Grammar.Juxtaposition
import Phrasebook.Proofs.Grammar.Soundness
import Phrasebook.Proofs.Reader.Extension
import Phrasebook.Proofs.Scan.Verdict

/-! # Texts that were cut short

Where the reader asks for more text there is some: braces that close the open string, or a line
feed that ends the line the text broke off in, and then the parentheses that are still missing. The
text with its completion is found in the grammar, so that completeness says that it is read.

* `Closes` — what completes a text that was cut short for a cause.
* `Reader.quoted_completes`, `Reader.part_completes`, `Reader.moreParts_completes`,
  `Reader.program_completes` — one lemma for each reading function, about the error it fails with.
* `Reader.atLevel_completes`, `exists_completion` — programs, level by level, and whole texts.
* `unfinished_goes_on` — the promise of an ending, and of the commands reported with it.
-/

namespace Phrasebook

/-- What closes all that is open at the end of a text. In an open string that is its braces; outside
    strings a line feed ends a comment or a command, and some parenthesis is open. -/
inductive Closes : SyntaxError.Cause → Text → Prop where
  | string (braces parentheses : Nat) :
      Closes .unclosedString (List.replicate (braces + 1) '}' ++ List.replicate parentheses ')')
  | filler (parentheses : Nat) :
      Closes .unclosedFiller ('\n' :: List.replicate (parentheses + 1) ')')

/-- One parenthesis more is missing around a filler. -/
theorem Closes.close {cause : SyntaxError.Cause} {closing : Text} (h : Closes cause closing) :
    Closes cause (closing ++ [')']) := by
  cases h with
  | string braces parentheses =>
    rw [List.append_assoc, ← List.replicate_succ']
    exact .string braces (parentheses + 1)
  | filler parentheses =>
    rw [List.cons_append, ← List.replicate_succ']
    exact .filler (parentheses + 1)

/-- What the reader left behind a command is not empty, so it begins as before when text is added
    behind it. -/
theorem CommandEnd.append {taken rest : Text} (h : CommandEnd taken rest) (hne : rest ≠ [])
    (more : Text) : CommandEnd taken (rest ++ more) := by
  cases h with
  | terminated hb hc => exact .terminated hb hc
  | unterminated hb hr =>
    refine .unterminated hb ?_
    intro c hc
    cases rest with
    | nil => exact absurd rfl hne
    | cons d rest => exact hr c hc

namespace Reader

/-! ## Words and strings -/

/-- No word is cut short: a backslash at the end is wrong, whatever follows. -/
theorem word_needsNoMore {here : Position} {text : Text} {e : SyntaxError}
    (h : word here text = .error (.malformed e)) : e.needsMoreInput = false := by
  fun_induction word here text with
  | case1 => cases h
  | case2 here c rest hm ih => exact ih (Step.cons_eq_error h)
  | case3 =>
    cases h
    rfl
  | case4 here c d rest hm ih => exact ih (Step.cons_eq_error h)
  | case5 => cases h

theorem openBraces_replicate (nesting : Nat) :
    Text.openBraces nesting (List.replicate nesting '}') = some 0 := by
  induction nesting with
  | zero => rfl
  | succ nesting ih => rw [List.replicate_succ, Text.openBraces_close, ih]

/-- A string that was cut short is completed by closing its own braces and then itself. -/
theorem quoted_completes {opening here : Position} {nesting : Nat} {text : Text} {e : SyntaxError}
    (h : quoted opening nesting here text = .error (.malformed e))
    (hmore : e.needsMoreInput = true) :
    e.cause = .unclosedString
      ∧ ∃ braces, Text.openBraces nesting (text ++ List.replicate braces '}') = some 0 := by
  fun_induction quoted opening nesting here text with
  | case1 nesting =>
    cases h
    exact ⟨rfl, nesting, openBraces_replicate nesting⟩
  | case2 =>
    cases h
    cases hmore
  | case3 nesting here c d rest hm ih =>
    obtain rfl := (Mark.of_eq_iff rfl).1 hm
    obtain ⟨hcause, braces, hb⟩ := ih (Step.cons_eq_error (Step.cons_eq_error h))
    exact ⟨hcause, braces, by simpa using hb⟩
  | case4 nesting here c rest hm ih =>
    obtain rfl := (Mark.of_eq_iff rfl).1 hm
    obtain ⟨hcause, braces, hb⟩ := ih (Step.cons_eq_error h)
    exact ⟨hcause, braces, by simpa using hb⟩
  | case5 => cases h
  | case6 here c rest hm nesting ih =>
    obtain rfl := (Mark.of_eq_iff rfl).1 hm
    obtain ⟨hcause, braces, hb⟩ := ih (Step.cons_eq_error h)
    exact ⟨hcause, braces, by simpa using hb⟩
  | case7 nesting here c rest hlast hescape hopen hclose ih =>
    have hne := ne_escape hlast hescape
    obtain ⟨hcause, braces, hb⟩ := ih (Step.cons_eq_error h)
    refine ⟨hcause, braces, ?_⟩
    rw [List.cons_append, Text.openBraces_cons (mt (Mark.of_eq_iff rfl).2 hne)
      (mt (Mark.of_eq_iff rfl).2 hopen) (mt (Mark.of_eq_iff rfl).2 hclose)]
    exact hb

/-! ## Parts -/

/-- A level whose programs can be completed: those that end where the text ends by a line feed, and
    those that fail for want of text by what closes all that is open. They nest less than `n`
    deep. -/
structure Level.Completes (level : Level) (n : Nat) : Prop where
  lineFeed : ∀ {cursor : Cursor}, (level.read cursor).stop = .endOfText →
    ∃ commands, SpellsProgram (cursor.rest ++ ['\n']) commands ∧ Program.nesting commands < n
  closing : ∀ {cursor : Cursor} {e : SyntaxError},
    (level.read cursor).stop = .failed (.malformed e) → e.needsMoreInput = true →
    ∃ closing commands, Closes e.cause closing ∧ SpellsProgram (cursor.rest ++ closing) commands
      ∧ Program.nesting commands < n

variable {level : Level} {n : Nat}

theorem filler_completes (hl : level.Completes n) {here : Position} {text : Text} {e : SyntaxError}
    (h : filler level ⟨here, '(' :: text⟩ = .error (.malformed e))
    (hmore : e.needsMoreInput = true) :
    ∃ closing read, Closes e.cause closing ∧ SpellsPart ('(' :: text ++ closing) read
      ∧ read.nesting ≤ n := by
  rw [filler] at h
  split at h
  · cases h
  · next content hr =>
    cases h
    obtain ⟨commands, hs, hn⟩ := hl.lineFeed (congrArg Reading.stop hr)
    have hspells : SpellsProgram (text ++ ['\n']) commands := hs
    refine ⟨['\n', ')'], .filler commands none, .filler 0, ?_, hn⟩
    simpa using SpellsPart.filler none hspells
  · next content fault hr =>
    cases h
    obtain ⟨closing, commands, hc, hs, hn⟩ := hl.closing (congrArg Reading.stop hr) hmore
    have hspells : SpellsProgram (text ++ closing) commands := hs
    refine ⟨closing ++ [')'], .filler commands none, hc.close, ?_, hn⟩
    simpa using SpellsPart.filler none hspells

theorem string_completes {here : Position} {text : Text} {e : SyntaxError}
    (h : string ⟨here, '{' :: text⟩ = .error (.malformed e)) (hmore : e.needsMoreInput = true) :
    ∃ closing read, Closes e.cause closing ∧ SpellsPart ('{' :: text ++ closing) read
      ∧ read.nesting = 0 := by
  rw [string_eq_map] at h
  obtain ⟨hcause, braces, hb⟩ := quoted_completes (Step.map_eq_error h) hmore
  have hbalanced : (text ++ List.replicate braces '}').Balanced := hb
  refine ⟨List.replicate (braces + 1) '}' ++ List.replicate 0 ')',
    .string (text ++ List.replicate braces '}') none, ?_, ?_, rfl⟩
  · rw [hcause]
    exact .string braces 0
  · simpa [Text.braced, List.replicate_succ'] using SpellsPart.string none hbalanced

theorem part_completes (hl : level.Completes n) {cursor : Cursor} {e : SyntaxError}
    (h : part level cursor = some (.error (.malformed e))) (hmore : e.needsMoreInput = true) :
    ∃ closing read, Closes e.cause closing ∧ SpellsPart (cursor.rest ++ closing) read
      ∧ read.nesting ≤ n := by
  obtain ⟨here, text⟩ := cursor
  cases text with
  | nil => cases h
  | cons c text =>
    rw [part, mark?_cons] at h
    cases hm : Mark.of c with
    | fillerOpen =>
      obtain rfl := (Mark.of_eq_iff rfl).1 hm
      rw [hm] at h
      exact filler_completes hl (Option.some.inj h) hmore
    | stringOpen =>
      obtain rfl := (Mark.of_eq_iff rfl).1 hm
      rw [hm] at h
      obtain ⟨closing, read, hc, hs, hn⟩ := string_completes (Option.some.inj h) hmore
      exact ⟨closing, read, hc, hs, by omega⟩
    | plain | escape =>
      rw [hm, Option.some.injEq, bareWord_eq_map] at h
      rw [word_needsNoMore (Step.map_eq_error h)] at hmore
      cases hmore
    | _ =>
      rw [hm] at h
      cases h

/-! ## Commands -/

/-- Parts that are read, and one that is cut short behind them, make a command once the text is
    completed. -/
theorem moreParts_completes (hs : level.Sound n) (hl : level.Completes n) {cursor : Cursor}
    {e : SyntaxError} (h : moreParts level cursor = .error (.malformed e))
    (hmore : e.needsMoreInput = true) :
    ∃ closing blanks spelling parts, Closes e.cause closing
      ∧ cursor.rest ++ closing = blanks ++ spelling ∧ Blanks blanks ∧ SpellsParts spelling parts
      ∧ Part.nestingAll parts ≤ n := by
  fun_induction moreParts level cursor with
  | case1 cursor first after hp ih =>
    replace h := Step.cons_eq_error h
    obtain ⟨spelling, ht, hfirst, hends, hn⟩ := part_sound hs hp
    obtain ⟨closing, blanks, further, parts, hc, hrest, hb, hparts, hns⟩ := ih h
    cases parts with
    | nil => cases hparts
    | cons next parts =>
      refine ⟨closing, [], spelling ++ (blanks ++ further), first :: next :: parts, hc, ?_, .nil,
        .more hfirst hb ?_ hparts, Nat.max_le.2 ⟨hn, hns⟩⟩
      · rw [ht, List.append_assoc, hrest]
        rfl
      · rintro hword hnext rfl
        -- The next part begins right behind the first, where a word cannot go on.
        obtain ⟨c, tail, rfl, -, hmark⟩ := hparts.head
        have hhead : after.rest.head? = some c := by
          cases hafter : after.rest with
          | nil =>
            rw [moreParts_of_rest_eq_nil hafter] at h
            cases h
          | cons d rest =>
            rw [hafter] at hrest
            obtain ⟨rfl, -⟩ := List.cons.inj hrest
            rfl
        have hends' := hends hword c hhead
        rw [hmark, hnext] at hends'
        cases hends'
  | case2 cursor fault hp =>
    cases h
    obtain ⟨closing, read, hc, hread, hn⟩ := part_completes hl hp hmore
    exact ⟨closing, [], _, [read], hc, rfl, .nil, .last hread, Nat.max_le.2 ⟨hn, Nat.zero_le n⟩⟩
  | case3 cursor hp hm ih =>
    obtain ⟨c, rest, hc, hmark⟩ := rest_eq_of_mark? hm
    obtain ⟨closing, blanks, spelling, parts, hcl, hrest, hb, hparts, hn⟩ := ih h
    rw [Cursor.next_rest_of_cons hc] at hrest
    refine ⟨closing, c :: blanks, spelling, parts, hcl, ?_, ?_, hparts, hn⟩
    · rw [hc, List.cons_append, hrest]
      rfl
    · exact List.forall_mem_cons.2 ⟨Mark.of_eq_blank.1 hmark, hb⟩
  | case4 => cases h
  | case5 =>
    cases h
    cases hmore
  | case6 => cases h

theorem command_completes (hs : level.Sound n) (hl : level.Completes n) {cursor : Cursor}
    {e : SyntaxError} (h : command level cursor = some (.error (.malformed e)))
    (hmore : e.needsMoreInput = true) :
    ∃ closing parts, Closes e.cause closing ∧ SpellsParts (cursor.rest ++ closing) parts
      ∧ Part.nestingAll parts ≤ n := by
  cases hp : part level cursor with
  | none =>
    rw [command_eq_none_iff.2 hp] at h
    cases h
  | some step =>
    rw [command_of_part_eq_some hp] at h
    obtain ⟨closing, blanks, spelling, parts, hc, hrest, hb, hparts, hn⟩ :=
      moreParts_completes hs hl (Step.map_eq_error (Option.some.inj h)) hmore
    -- A part begins at the cursor, and so no white space does.
    cases blanks with
    | nil => exact ⟨closing, parts, hc, hrest ▸ hparts, hn⟩
    | cons c blanks =>
      obtain ⟨here, text⟩ := cursor
      cases text with
      | nil => cases hp
      | cons d text =>
        obtain ⟨rfl, -⟩ := List.cons.inj hrest
        rw [part_eq_none (Mark.of_eq_blank.2 (hb d List.mem_cons_self)) rfl] at hp
        cases hp

/-! ## Programs -/

/-- A program that ends where the text ends may be ended by a line feed as well. -/
theorem program_lineFeed (hs : level.Sound n) {cursor : Cursor}
    (h : (program level cursor).stop = .endOfText) :
    ∃ commands, SpellsProgram (cursor.rest ++ ['\n']) commands ∧ Program.nesting commands ≤ n := by
  obtain ⟨spelling, left, ht, hp, hleft, hn⟩ := program_sound hs cursor (by rw [h]; nofun)
  rw [h] at hleft
  refine ⟨(program level cursor).commands, ?_, hn⟩
  rw [ht]
  cases hleft with
  | nothing =>
    have hline : Gap ['\n'] := .char (.inl isBlank_lineFeed) .nil
    simpa using hp.append_gap hline
  | @comment comment hc =>
    have hline : Gap ('|' :: comment ++ ['\n']) := .comment hc .nil
    simpa using hp.append_gap hline

theorem program_completes (hs : level.Sound n) (hl : level.Completes n) {cursor : Cursor}
    {e : SyntaxError} (h : (program level cursor).stop = .failed (.malformed e))
    (hmore : e.needsMoreInput = true) :
    ∃ closing commands, Closes e.cause closing ∧ SpellsProgram (cursor.rest ++ closing) commands
      ∧ Program.nesting commands ≤ n := by
  fun_induction program level cursor with
  | case1 cursor read after hc ih =>
    replace h : (program level after).stop = .failed (.malformed e) := h
    obtain ⟨spelling, taken, parts, at?, rfl, ht, hp, he, hn⟩ := command_sound hs hc
    obtain ⟨closing, commands, hcl, hcommands, hns⟩ := ih h
    have hne : after.rest ≠ [] := by
      intro hnil
      rw [program_of_rest_eq_nil hnil] at h
      cases h
    refine ⟨closing, .mk parts at? :: commands, hcl, ?_, Nat.max_le.2 ⟨hn, hns⟩⟩
    have hend : CommandEnd taken (after.rest ++ closing ++ []) := by
      rw [List.append_nil]
      exact he.append hne closing
    have hall := hcommands.command hp at? hend
    rw [ht]
    simpa using hall
  | case2 cursor fault hc =>
    cases h
    obtain ⟨closing, parts, hcl, hparts, hn⟩ := command_completes hs hl hc hmore
    have hall := SpellsProgram.commands .nil (.last none hparts) .nil
    refine ⟨closing, [.mk parts none], hcl, ?_, Nat.max_le.2 ⟨hn, Nat.zero_le n⟩⟩
    simpa using hall
  | case3 => cases h
  | case4 => cases h
  | case5 =>
    cases h
    cases hmore
  | case6 cursor hc hm ih =>
    obtain ⟨here, text⟩ := cursor
    obtain ⟨c, rest, rfl, hmark⟩ := rest_eq_of_mark? hm
    obtain rfl := (Mark.of_eq_iff rfl).1 hmark
    obtain ⟨closing, commands, hcl, hcommands, hn⟩ := ih h
    obtain ⟨comment, ht, hcomment, -, hline⟩ := skipComment_split here rest
    -- Something failed behind the comment, so a line feed ended it.
    cases hbehind : (skipComment ⟨here, '|' :: rest⟩).rest with
    | nil =>
      rw [program_of_rest_eq_nil hbehind] at h
      cases h
    | cons d tail =>
      obtain rfl := hline d (by rw [hbehind]; rfl)
      rw [hbehind] at ht hcommands
      have hgap : Gap ('|' :: comment ++ ['\n']) := .comment hcomment .nil
      have hall := SpellsProgram.gap hgap (SpellsProgram.of_lineFeed hcommands)
      refine ⟨closing, commands, hcl, ?_, hn⟩
      show SpellsProgram ('|' :: rest ++ closing) commands
      rw [ht]
      simpa using hall
  | case7 cursor hc mark hclose hstring hcomment hm ih =>
    obtain ⟨here, text⟩ := cursor
    obtain ⟨c, rest, rfl, rfl⟩ := rest_eq_of_mark? hm
    have hskip := skips_of_command_eq_none hc hm hclose hstring hcomment
    obtain ⟨closing, commands, hcl, hcommands, hn⟩ := ih h
    have hgap : Gap [c] := .char (skipped_iff.2 hskip) .nil
    have hall : SpellsProgram ([c] ++ (rest ++ closing)) commands := hcommands.gap hgap
    exact ⟨closing, commands, hcl, hall, hn⟩

/-! ## Levels -/

theorem atLevel_completes : ∀ n, (atLevel n).Completes n
  -- At level zero nothing is read, and no text that is added helps.
  | 0 => ⟨nofun, nofun⟩
  | n + 1 => by
    constructor
    · intro cursor h
      rw [atLevel_succ_read] at h
      obtain ⟨commands, hs, hn⟩ := program_lineFeed (atLevel_sound n) h
      exact ⟨commands, hs, Nat.lt_succ_of_le hn⟩
    · intro cursor e h hmore
      rw [atLevel_succ_read] at h
      obtain ⟨closing, commands, hc, hs, hn⟩ :=
        program_completes (atLevel_sound n) (atLevel_completes n) h hmore
      exact ⟨closing, commands, hc, hs, Nat.lt_succ_of_le hn⟩

end Reader

/-! ## Whole texts -/

/-- A text that was cut short is completed by closing what is open. -/
theorem exists_completion [CallStack] {text : Text} {program : Program} {error : SyntaxError}
    (h : parse text = .ok ⟨program, .needsMore error⟩) :
    ∃ closing, Closes error.cause closing
      ∧ ∃ whole, parse (text ++ closing) = .ok ⟨whole, .clean⟩ := by
  have hlevel := @Reader.Level.Completes.closing _ _ (Reader.atLevel_completes nestingLimit)
    (.atStart text)
  rw [parse, parseWithin] at h
  generalize (Reader.atLevel nestingLimit).read (.atStart text) = reading at h hlevel
  obtain ⟨commands, stop⟩ := reading
  cases stop with
  | endOfText => cases h
  | closing stop => cases h
  | failed fault =>
    cases fault with
    | tooDeep => cases h
    | malformed e =>
      simp only [Except.ok.injEq, Parse.mk.injEq] at h
      obtain ⟨rfl, hmore⟩ := Ending.ofError_eq_needsMore_iff.1 h.2
      obtain ⟨closing, whole, hc, hs, hn⟩ := hlevel rfl hmore
      obtain ⟨read, hread, -⟩ := parse_of_spells (.program hs) hn
      exact ⟨closing, hc, read, hread⟩

/-- A text that asks for more can be completed, by closing what is open at its end. And as long as
    the reading of a text has not come to an end, each longer text that can be followed begins with
    the commands reported so far, whether it is completed or not. -/
theorem unfinished_goes_on [CallStack] {text : Text} {short : Parse}
    (h : parse text = .ok short) :
    (∀ error, short.ending = .needsMore error →
      ∃ closing, Closes error.cause closing
        ∧ ∃ whole, parse (text ++ closing) = .ok ⟨whole, .clean⟩)
    ∧ (short.ending ≠ .clean → ∀ more,
      ((text ++ more).WithinLimit → ∃ long, parse (text ++ more) = .ok long)
      ∧ ∀ long, parse (text ++ more) = .ok long → short.program <+: long.program) := by
  constructor
  · intro error hmore
    obtain ⟨program, ending⟩ := short
    obtain rfl : ending = .needsMore error := hmore
    exact exists_completion h
  · intro hn more
    exact ⟨exists_parse_of_withinLimit, fun long hlong => parse_append_commands h hn hlong⟩

open StandardStack

theorem unfinished_goes_on_of_string :
    let text : Text := ['a', '\n', '(', 'b', ' ', '{', 'c']
    let more : Text := ['\\', '}', '}', ')', ';', 'd']
    let error : SyntaxError := ⟨.unclosedString, ⟨5, 2, 3⟩, []⟩
    ∃ program, parse text = .ok ⟨program, .needsMore error⟩ ∧ program.length = 1
      ∧ (∃ closing, Closes .unclosedString closing
        ∧ ∃ whole, parse (text ++ closing) = .ok ⟨whole, .clean⟩)
      ∧ Ending.needsMore error ≠ .clean ∧ (text ++ more).WithinLimit
      ∧ ∃ long, parse (text ++ more) = .ok long ∧ program <+: long.program := by
  intro text more error
  obtain ⟨program, hread⟩ : ∃ program, parse text = .ok ⟨program, .needsMore error⟩ :=
    parse_of_ending (by decide +kernel)
  have hlength : (parse text).toOption.map (·.program.length) = some 1 := by decide +kernel
  rw [hread] at hlength
  have hlimit : (text ++ more).WithinLimit := .of_length (by decide)
  obtain ⟨hcompletes, hremain⟩ := unfinished_goes_on hread
  obtain ⟨hexists, hprefix⟩ := hremain nofun more
  obtain ⟨long, hlong⟩ := hexists hlimit
  exact ⟨program, hread, Option.some.inj hlength, hcompletes error rfl, nofun, hlimit,
    long, hlong, hprefix long hlong⟩

end Phrasebook
