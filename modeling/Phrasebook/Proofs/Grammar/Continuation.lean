import Phrasebook.Proofs.Grammar.Juxtaposition
import Phrasebook.Proofs.Scan.Depth
import Phrasebook.Proofs.Scan.Settled

/-! # Texts that go on

What a text spells when another follows it, if both can be read on their own and the first ends in a
line feed. As a rule the line feed ends a command. If it is escaped, and so belongs to a word, the
command goes on, unless the second text begins with what ends a command.

* `Gap.blanks_or_separator` — what a text begins with ends a command or does not.
* `SpellsCommands.join` — commands without anything between them that ends one: the last and the
  first become one.
* `SpellsProgram.append_of_endsCommand`, `SpellsProgram.join` — what follows a command that nothing
  has ended.
* `Spells.exists_commands` — a program that ends with its last command.
* `parse_append_cases` — whole texts.
-/

namespace Phrasebook

/-! ## Gaps -/

/-- What may stand between commands is white space within a line, or it ends a command. -/
theorem Gap.blanks_or_separator {gap : Text} (h : Gap gap) : Blanks gap ∨ Separator gap := by
  induction h with
  | nil => exact .inl .nil
  | @char c gap hc hg ih =>
    by_cases hend : c = ';' ∨ c = '\n'
    · exact .inr (.terminator hend hg)
    · obtain ⟨hsemicolon, hline⟩ := not_or.1 hend
      have hblank : isBlank c = true := hc.resolve_right hsemicolon
      exact ih.imp (fun hb => List.forall_mem_cons.2 ⟨⟨hblank, hline⟩, hb⟩) (.blank hblank)
  | comment hc hg _ => exact .inr (.comment hc hg)

/-- Before a part, white space within a line ends no command. -/
theorem Blanks.not_endsCommand {blanks : Text} (hb : Blanks blanks) {c : Char}
    (ho : (Mark.of c).opensPart = true) (rest : Text) : ¬ EndsCommand (blanks ++ c :: rest) := by
  induction blanks with
  | nil =>
    rintro (_ | (hm | hm | hm) | ⟨hm, _⟩) <;>
    · rw [hm] at ho
      cases ho
  | cons b blanks ih =>
    obtain ⟨hblank, hrest⟩ := List.forall_mem_cons.1 hb
    have hmark : Mark.of b = .blank := Mark.of_eq_blank.2 hblank
    rintro (_ | (hm | hm | hm) | ⟨_, he⟩)
    · cases hmark.symm.trans hm
    · cases hmark.symm.trans hm
    · cases hmark.symm.trans hm
    · exact ih hrest he

/-- A gap in front of a whole text belongs to it. -/
theorem Spells.gap {gap text : Text} {program : Program} (hg : Gap gap) (h : Spells text program) :
    Spells (gap ++ text) program := by
  cases h with
  | program hs => exact .program (hs.gap hg)
  | comment hs hc =>
    rw [← List.append_assoc]
    exact .comment (hs.gap hg) hc

/-- The last character of two pieces is the last of the second, unless that is empty. -/
theorem Text.append_eq_concat {front rest init : Text} {c : Char}
    (h : front ++ rest = init ++ [c]) :
    (rest = [] ∧ front = init ++ [c]) ∨ ∃ left, rest = left ++ [c] ∧ init = front ++ left := by
  obtain rfl | ⟨left, d, rfl⟩ := rest.eq_nil_or_concat
  · rw [List.append_nil] at h
    exact .inl ⟨rfl, h⟩
  · rw [List.concat_eq_append, ← List.append_assoc] at h
    obtain ⟨hinit, hlast⟩ := List.append_inj' h rfl
    rw [List.concat_eq_append, hlast]
    exact .inr ⟨left, rfl, hinit.symm⟩

/-- Without the line feed at its end a gap is one still, or ends in a comment. -/
theorem Gap.spells_of_lineFeed {gap init : Text} (h : Gap gap) (heq : gap = init ++ ['\n']) :
    Spells init [] := by
  induction h generalizing init with
  | nil => simp at heq
  | @char c gap hc hg ih =>
    have hsplit : [c] ++ gap = init ++ ['\n'] := heq
    obtain ⟨rfl, hchar⟩ | ⟨left, hgap, rfl⟩ := Text.append_eq_concat hsplit
    · obtain rfl : [] = init := List.append_inj_left' hchar rfl
      exact .program (.empty .nil)
    · exact Spells.gap (.char hc .nil) (ih hgap)
  | @comment comment gap hc hg ih =>
    have hsplit : ('|' :: comment ++ ['\n']) ++ gap = init ++ ['\n'] := by simpa using heq
    obtain ⟨rfl, hcomment⟩ | ⟨left, hgap, rfl⟩ := Text.append_eq_concat hsplit
    · obtain rfl : '|' :: comment = init := List.append_inj_left' hcomment rfl
      exact .comment (.empty .nil) hc
    · exact Spells.gap (.comment hc .nil) (ih hgap)

/-! ## Joining what nothing divides -/

theorem SpellsWord.append {spelling text more moreText : Text} (h : SpellsWord spelling text)
    (hm : SpellsWord more moreText) : SpellsWord (spelling ++ more) (text ++ moreText) := by
  induction h with
  | nil => exact hm
  | bare hc _ ih => exact .bare hc ih
  | escaped c _ ih => exact .escaped c ih

/-- A word directly in front of parts that begin with a word is one with it. -/
theorem SpellsParts.word_append {spelling text more : Text} {next : Part} {others : List Part}
    (hw : SpellsWord spelling text) (hne : text ≠ []) (hn : next.isWord = true)
    (h : SpellsParts more (next :: others)) :
    ∃ head tail, head.isWord = true ∧ SpellsParts (spelling ++ more) (head :: tail) := by
  have hpart : ∀ {more : Text}, SpellsPart more next →
      ∃ head, head.isWord = true ∧ SpellsPart (spelling ++ more) head := by
    intro more hp
    cases hp with
    | @word _ moreText _ hm _ =>
      have hne' : text ++ moreText ≠ [] := List.append_ne_nil_of_left_ne_nil hne _
      exact ⟨.word (text ++ moreText) none, rfl, .word none (hw.append hm) hne'⟩
    | string => cases hn
    | filler => cases hn
  cases h with
  | last hp =>
    obtain ⟨head, hhead, hp⟩ := hpart hp
    exact ⟨head, [], hhead, .last hp⟩
  | more hp hb hword hrest =>
    obtain ⟨head, hhead, hp⟩ := hpart hp
    rw [← List.append_assoc]
    exact ⟨head, _, hhead, .more hp hb (fun _ => hword hn) hrest⟩

/-- Where a command goes on, its parts are those of both pieces, but that the last word of the first
    may be one with the first word of the second. -/
theorem SpellsParts.join {spelling blanks more : Text} {first next : Part}
    {parts others : List Part} (h : SpellsParts spelling (first :: parts)) (hb : Blanks blanks)
    (ho : SpellsParts more (next :: others)) :
    ∃ head tail, head.isWord = first.isWord
      ∧ SpellsParts (spelling ++ (blanks ++ more)) (head :: tail) := by
  match h with
  | .last hp =>
    by_cases hdivided : first.isWord = true → next.isWord = true → blanks ≠ []
    · exact ⟨first, next :: others, rfl, .more hp hb hdivided ho⟩
    · -- Two words with nothing between them.
      obtain ⟨hfirst, hnext, hblanks⟩ : first.isWord = true ∧ next.isWord = true ∧ blanks = [] := by
        simpa using hdivided
      subst hblanks
      cases hp with
      | word _ hw hne => exact ho.word_append hw hne hnext
      | string => cases hfirst
      | filler => cases hfirst
  | .more hp hb' hw hrest =>
    obtain ⟨head, tail, hhead, hjoined⟩ := hrest.join hb ho
    rw [List.append_assoc, List.append_assoc]
    exact ⟨first, head :: tail, rfl, .more hp hb' (fun hf hn => hw hf (hhead ▸ hn)) hjoined⟩

theorem SpellsParts.exists_join {spelling blanks more : Text} {parts others : List Part}
    (h : SpellsParts spelling parts) (hb : Blanks blanks) (ho : SpellsParts more others) :
    ∃ joined, SpellsParts (spelling ++ (blanks ++ more)) joined := by
  match parts, others, h, ho with
  | first :: parts, next :: others, h, ho =>
    obtain ⟨head, tail, -, hjoined⟩ := h.join hb ho
    exact ⟨head :: tail, hjoined⟩

theorem SpellsCommands.ne_nil {spelling : Text} {commands : List Command}
    (h : SpellsCommands spelling commands) : commands ≠ [] := by
  cases h <;> exact List.cons_ne_nil _ _

/-- The last command of the first piece and the first of the second are one. -/
theorem SpellsCommands.join {spelling blanks more : Text} {commands others : List Command}
    (h : SpellsCommands spelling commands) (hb : Blanks blanks)
    (ho : SpellsCommands more others) :
    ∃ joined, SpellsCommands (spelling ++ (blanks ++ more)) joined
      ∧ joined.length + 1 = commands.length + others.length := by
  induction h using SpellsCommands.commands_induction with
  | last at? hp =>
    cases ho with
    | last _ hp' =>
      obtain ⟨parts, hparts⟩ := hp.exists_join hb hp'
      exact ⟨[.mk parts at?], .last at? hparts, rfl⟩
    | @more spelling' separator rest _ _ next others hp' hs hrest =>
      obtain ⟨parts, hparts⟩ := hp.exists_join hb hp'
      have hall := SpellsCommands.more at? hparts hs hrest
      refine ⟨.mk parts at? :: next :: others, by simpa using hall, ?_⟩
      simp only [List.length_cons, List.length_nil]
      omega
  | more at? hp hs _ ih =>
    obtain ⟨joined, hjoined, hlength⟩ := ih
    obtain ⟨next, joined, rfl⟩ := List.exists_cons_of_ne_nil hjoined.ne_nil
    rw [List.append_assoc, List.append_assoc]
    refine ⟨_, .more at? hp hs hjoined, ?_⟩
    simp only [List.length_cons] at hlength ⊢
    omega

/-! ## Texts behind each other -/

/-- A whole text is a program and a comment behind it, or a program alone. -/
theorem Spells.exists_tail {text : Text} {program : Program} (h : Spells text program) :
    ∃ body tail, text = body ++ tail ∧ SpellsProgram body program ∧ EndsCommand tail
      ∧ ∀ {other commands}, SpellsProgram other commands → Spells (other ++ tail) commands := by
  cases h with
  | program hs =>
    refine ⟨text, [], (List.append_nil text).symm, hs, .nil, fun ho => ?_⟩
    rw [List.append_nil]
    exact .program ho
  | @comment body comment _ hs hc =>
    exact ⟨body, '|' :: comment, rfl, hs, .mark (.inr (.inl (Mark.of_char rfl))), (.comment · hc)⟩

/-- Behind a program, what begins with the end of a command spells commands of its own. -/
theorem SpellsProgram.append_of_endsCommand {first second tail : Text}
    {commands others : List Command} (h : SpellsProgram first commands)
    (ho : SpellsProgram second others) (he : EndsCommand (second ++ tail)) :
    SpellsProgram (first ++ second) (commands ++ others) := by
  cases ho with
  | empty hg =>
    rw [List.append_nil]
    exact h.append_gap hg
  | @commands before spelling after _ hb hs ha =>
    obtain hblanks | hseparator := hb.blanks_or_separator
    · obtain ⟨c, rest, rfl, ho⟩ := hs.opens
      rw [List.append_assoc, List.append_assoc] at he
      exact absurd he (hblanks.not_endsCommand ho _)
    · exact h.append hseparator (.commands .nil hs ha)

/-- Otherwise the last command of the program goes on, if nothing has ended it before. -/
theorem SpellsProgram.join {before spelling second tail : Text} {commands others : List Command}
    (hb : Gap before) (hc : SpellsCommands spelling commands) (ho : SpellsProgram second others)
    (ht : EndsCommand tail) (he : ¬ EndsCommand (second ++ tail)) :
    ∃ joined, SpellsProgram (before ++ spelling ++ second) joined
      ∧ joined.length + 1 = commands.length + others.length := by
  cases ho with
  | empty hg => exact absurd (hg.endsCommand ht) he
  | @commands between more after _ hb' hs ha =>
    obtain hblanks | hseparator := hb'.blanks_or_separator
    · obtain ⟨joined, hjoined, hlength⟩ := hc.join hblanks hs
      have hall := SpellsProgram.commands hb hjoined ha
      exact ⟨joined, by simpa using hall, hlength⟩
    · rw [List.append_assoc] at he
      exact absurd (hseparator.endsCommand _) he

theorem SpellsProgram.gap_of_nil {text : Text} (h : SpellsProgram text []) : Gap text := by
  cases h with
  | empty hg => exact hg
  | commands _ hs _ => exact absurd rfl hs.ne_nil

/-- A program that ends in a line feed, and does so with its last command, as the line feed cannot
    be spared. -/
theorem Spells.exists_commands {init : Text} {commands : List Command}
    (h : Spells (init ++ ['\n']) commands) (hinit : ¬ Spells init commands) :
    ∃ before spelling, init ++ ['\n'] = before ++ spelling ∧ Gap before
      ∧ SpellsCommands spelling commands := by
  generalize htext : init ++ ['\n'] = text at h
  cases h with
  | @comment body comment _ hs hc =>
    have hsplit : (body ++ ['|']) ++ comment = init ++ ['\n'] := by simpa using htext.symm
    obtain ⟨-, hbar⟩ | ⟨left, rfl, -⟩ := Text.append_eq_concat hsplit
    · cases (List.append_inj' hbar rfl).2
    · -- No comment has a line feed in it.
      exact absurd List.mem_concat_self hc
  | program hs =>
    cases hs with
    | empty hg => exact absurd (hg.spells_of_lineFeed htext.symm) hinit
    | @commands before spelling after _ hb hs ha =>
      have hsplit : (before ++ spelling) ++ after = init ++ ['\n'] := by simpa using htext.symm
      obtain ⟨rfl, -⟩ | ⟨left, hafter, rfl⟩ := Text.append_eq_concat hsplit
      · exact ⟨before, spelling, by rw [List.append_nil], hb, hs⟩
      · -- What is left of the gap goes with the program.
        obtain ⟨gap, tail, rfl, hgap, -, htail⟩ := (ha.spells_of_lineFeed hafter).exists_tail
        have hall := htail (.commands hb hs hgap.gap_of_nil)
        exact absurd (by simpa using hall) hinit

theorem Spells.of_same {text : Text} {program other : Program} (h : Spells text program)
    (hs : Program.same program other = true) : Spells text other :=
  h.of_erase_eq ((Program.same_iff _ _).1 hs)

/-- Two texts that can be read on their own and as one, the first of which ends in a line feed: the
    program of both is that of the first and that of the second. Only where the line feed is escaped
    and the second text does not begin with the end of a command, it has one command less. -/
theorem parse_append_cases [CallStack] {text rest : Text} {first second program : Program}
    (hline : text.getLast? = some '\n') (hfirst : parse text = .ok ⟨first, .clean⟩)
    (hsecond : parse rest = .ok ⟨second, .clean⟩)
    (hprogram : parse (text ++ rest) = .ok ⟨program, .clean⟩) :
    (Program.same program (first ++ second) = true ∧ (text.EscapesLineFeed → EndsCommand rest))
      ∨ (program.length + 1 = first.length + second.length ∧ text.EscapesLineFeed
        ∧ ¬ EndsCommand rest) := by
  obtain ⟨hs, hn⟩ := spells_of_parse hfirst
  obtain ⟨hs', -⟩ := spells_of_parse hsecond
  obtain ⟨hall, -⟩ := spells_of_parse hprogram
  have hdropped := parse_dropLast (withinLimit_of_parse hfirst) hline hfirst
  obtain ⟨init, rfl⟩ := List.getLast?_eq_some_iff.1 hline
  rw [List.dropLast_concat] at hdropped
  by_cases hinit : Spells init first
  · -- The line feed ends the last command, or stands behind it.
    left
    have hboth := hinit.append_lineFeed hs'
    rw [List.append_cons] at hboth
    refine ⟨hall.unique hboth, fun hescapes => ?_⟩
    obtain ⟨_, _, hfatal, -⟩ := hescapes
    obtain ⟨read, hread, -⟩ := parse_of_spells hinit hn
    rw [List.dropLast_concat, parse, hread] at hfatal
    cases hfatal
  · obtain ⟨before, spelling, heq, hb, hcommands⟩ := hs.exists_commands hinit
    have hescapes : Text.EscapesLineFeed (init ++ ['\n']) := by
      refine hdropped.resolve_right ?_
      rintro ⟨read, hread⟩
      refine hinit ?_
      obtain ⟨hspells, -⟩ := spells_of_parse hread
      have hline := hspells.append_lineFeed (.program (.empty .nil))
      rw [List.append_nil] at hline
      exact hspells.of_same (hline.unique hs)
    obtain ⟨body, tail, rfl, hbody, htail, htext⟩ := hs'.exists_tail
    by_cases he : EndsCommand (body ++ tail)
    · left
      have hchunk : SpellsProgram (init ++ ['\n']) first := by
        have hends := SpellsProgram.commands hb hcommands .nil
        rwa [List.append_nil, ← heq] at hends
      have hboth := htext (hchunk.append_of_endsCommand hbody he)
      rw [List.append_assoc] at hboth
      exact ⟨hall.unique hboth, fun _ => he⟩
    · right
      obtain ⟨joined, hjoined, hlength⟩ := SpellsProgram.join hb hcommands hbody htail he
      have hboth := htext hjoined
      rw [← heq, List.append_assoc] at hboth
      rw [Program.length_eq_of_same (hall.unique hboth)]
      exact ⟨hlength, hescapes, he⟩

end Phrasebook
