import Phrasebook.Proofs.Tree.Shape
import Phrasebook.Tree.Printer

/-! # The grammar

What it means for a text to spell a program, said without a reader.

* `Text.openBraces`, `Text.Balanced` — the braces that a quoted text leaves open.
* `SpellsWord`, `Blanks`, `Gap`, `Separator` — words, and what stands between parts and between
  commands.
* `SpellsPart`, `SpellsParts`, `SpellsCommands`, `SpellsProgram` — the tree, rule by rule.
* `SpellsCommands.commands_induction` — induction over commands alone.
* `Spells` — whole texts, which may end in a comment that no line feed follows.
* `Part.Spellable`, `Spells.every`, `Spells.wellFormed` — the trees that can be spelled at all.

Positions take no part: a text that spells a program spells every program that is the same up to
them (`Spells.of_erase_eq`).
-/

namespace Phrasebook

/-! ## Quoted texts -/

namespace Text

/-- The braces that are open behind the text if `nesting` are open before it. There is no such
    number if a brace is closed that was not opened, or if the text ends in a backslash that
    escapes nothing. -/
def openBraces (nesting : Nat) : Text → Option Nat
  | [] => some nesting
  | c :: rest =>
    if c = '\\' then
      match rest with
      | [] => none
      | _ :: rest => openBraces nesting rest
    else if c = '{' then openBraces (nesting + 1) rest
    else if c = '}' then
      match nesting with
      | 0 => none
      | nesting + 1 => openBraces nesting rest
    else openBraces nesting rest

@[simp] theorem openBraces_escape (nesting : Nat) (c : Char) (rest : Text) :
    openBraces nesting ('\\' :: c :: rest) = openBraces nesting rest := rfl

@[simp] theorem openBraces_open (nesting : Nat) (rest : Text) :
    openBraces nesting ('{' :: rest) = openBraces (nesting + 1) rest := by
  rw [openBraces.eq_def]
  rfl

@[simp] theorem openBraces_close (nesting : Nat) (rest : Text) :
    openBraces (nesting + 1) ('}' :: rest) = openBraces nesting rest := by
  rw [openBraces.eq_def]
  rfl

theorem openBraces_cons {c : Char} (he : c ≠ '\\') (ho : c ≠ '{') (hc : c ≠ '}') (nesting : Nat)
    (rest : Text) : openBraces nesting (c :: rest) = openBraces nesting rest := by
  rw [openBraces.eq_def]
  simp [he, ho, hc]

/-- Every brace in the text is opened and closed in order, escaped ones aside. -/
def Balanced (text : Text) : Prop := text.openBraces 0 = some 0

instance (text : Text) : Decidable text.Balanced := inferInstanceAs (Decidable (_ = _))

end Text

/-! ## Words and what stands between -/

/-- Whether a character of a word may stand for itself. -/
def IsBare (c : Char) : Prop := c ∉ ['(', ')', '{', '}', '|', ';', '\\'] ∧ isBlank c = false

/-- A word character by character, each bare or behind a backslash. -/
inductive SpellsWord : Text → Text → Prop where
  | nil : SpellsWord [] []
  | bare {c : Char} {spelling text : Text} :
      IsBare c → SpellsWord spelling text → SpellsWord (c :: spelling) (c :: text)
  | escaped (c : Char) {spelling text : Text} :
      SpellsWord spelling text → SpellsWord ('\\' :: c :: spelling) (c :: text)

/-- White space within a line. -/
def Blanks (text : Text) : Prop := ∀ c ∈ text, isBlank c = true ∧ c ≠ '\n'

/-- What may stand before, between and after commands: white space, semicolons, and comments up to
    the end of their line. -/
inductive Gap : Text → Prop where
  | nil : Gap []
  | char {c : Char} {gap : Text} : isBlank c = true ∨ c = ';' → Gap gap → Gap (c :: gap)
  | comment {comment gap : Text} : '\n' ∉ comment → Gap gap →
      Gap ('|' :: comment ++ '\n' :: gap)

/-- A gap that ends a command: outside comments it has a semicolon or a line feed. -/
inductive Separator : Text → Prop where
  | terminator {c : Char} {gap : Text} : c = ';' ∨ c = '\n' → Gap gap → Separator (c :: gap)
  | blank {c : Char} {gap : Text} : isBlank c = true → Separator gap → Separator (c :: gap)
  | comment {comment gap : Text} : '\n' ∉ comment → Gap gap →
      Separator ('|' :: comment ++ '\n' :: gap)

/-! ## The tree -/

mutual

/-- The three kinds of parts. -/
inductive SpellsPart : Text → Part → Prop where
  | word {spelling text : Text} (at? : Option Position) :
      SpellsWord spelling text → text ≠ [] → SpellsPart spelling (.word text at?)
  | string {text : Text} (at? : Option Position) :
      text.Balanced → SpellsPart text.braced (.string text at?)
  | filler {spelling : Text} {content : List Command} (at? : Option Position) :
      SpellsProgram spelling content →
      SpellsPart ('(' :: spelling ++ [')']) (.filler content at?)

/-- The parts of a command, one at least. Between two words there has to be white space. -/
inductive SpellsParts : Text → List Part → Prop where
  | last {spelling : Text} {part : Part} :
      SpellsPart spelling part → SpellsParts spelling [part]
  | more {spelling blanks rest : Text} {part next : Part} {parts : List Part} :
      SpellsPart spelling part → Blanks blanks →
      (part.isWord = true → next.isWord = true → blanks ≠ []) →
      SpellsParts rest (next :: parts) →
      SpellsParts (spelling ++ (blanks ++ rest)) (part :: next :: parts)

/-- Commands, one at least, with a separator between neighbours. -/
inductive SpellsCommands : Text → List Command → Prop where
  | last {spelling : Text} {parts : List Part} (at? : Option Position) :
      SpellsParts spelling parts → SpellsCommands spelling [.mk parts at?]
  | more {spelling separator rest : Text} {parts : List Part} (at? : Option Position)
      {next : Command} {commands : List Command} :
      SpellsParts spelling parts → Separator separator →
      SpellsCommands rest (next :: commands) →
      SpellsCommands (spelling ++ (separator ++ rest)) (.mk parts at? :: next :: commands)

/-- A program with gaps around its commands. -/
inductive SpellsProgram : Text → List Command → Prop where
  | empty {gap : Text} : Gap gap → SpellsProgram gap []
  | commands {before spelling after : Text} {commands : List Command} :
      Gap before → SpellsCommands spelling commands → Gap after →
      SpellsProgram (before ++ (spelling ++ after)) commands

end

/-- A whole text. Only here may a comment be the last of it. -/
inductive Spells : Text → Program → Prop where
  | program {text : Text} {program : Program} : SpellsProgram text program → Spells text program
  | comment {text comment : Text} {program : Program} :
      SpellsProgram text program → '\n' ∉ comment → Spells (text ++ '|' :: comment) program

/-- Induction over the commands alone, with nothing said about their parts. -/
@[elab_as_elim]
theorem SpellsCommands.commands_induction
    {motive : (spelling : Text) → (commands : List Command) →
      SpellsCommands spelling commands → Prop}
    (last : ∀ {spelling : Text} {parts : List Part} (at? : Option Position)
      (hp : SpellsParts spelling parts), motive _ _ (.last at? hp))
    (more : ∀ {spelling separator rest : Text} {parts : List Part} (at? : Option Position)
      {next : Command} {commands : List Command} (hp : SpellsParts spelling parts)
      (hs : Separator separator) (hrest : SpellsCommands rest (next :: commands)),
      motive _ _ hrest → motive _ _ (.more at? hp hs hrest))
    {spelling : Text} {commands : List Command} (h : SpellsCommands spelling commands) :
    motive spelling commands h := by
  refine @SpellsCommands.rec (fun _ _ _ => True) (fun _ _ _ => True) motive (fun _ _ _ => True)
    ?_ ?_ ?_ ?_ ?_ ?_ ?_ ?_ ?_ spelling commands h
  case refine_6 => exact fun at? hp _ => last at? hp
  case refine_7 => exact fun at? _ _ hp hs hrest _ ih => more at? hp hs hrest ih
  all_goals
    intros
    trivial

/-! ## Positions take no part -/

theorem Part.isWord_of_erase_eq {part other : Part} (he : part.erase = other.erase) :
    part.isWord = other.isWord := by
  cases part <;> cases other <;> simp_all [Part.erase, Part.isWord]

mutual

theorem SpellsPart.of_erase_eq {spelling : Text} {part other : Part}
    (h : SpellsPart spelling part) (he : part.erase = other.erase) :
    SpellsPart spelling other := by
  match h with
  | .word _ hw hne =>
    cases other <;> simp only [Part.erase, reduceCtorEq, Part.word.injEq, and_true] at he
    subst he
    exact .word _ hw hne
  | .string _ hb =>
    cases other <;> simp only [Part.erase, reduceCtorEq, Part.string.injEq, and_true] at he
    subst he
    exact .string _ hb
  | .filler _ hs =>
    cases other <;> simp only [Part.erase, reduceCtorEq, Part.filler.injEq, and_true] at he
    exact .filler _ (hs.of_erase_eq he)

theorem SpellsParts.of_erase_eq {spelling : Text} {parts others : List Part}
    (h : SpellsParts spelling parts) (he : Part.eraseAll parts = Part.eraseAll others) :
    SpellsParts spelling others := by
  match h with
  | .last hp =>
    match others with
    | [other] => exact .last (hp.of_erase_eq (by simpa [Part.eraseAll] using he))
    | [] | _ :: _ :: _ => simp [Part.eraseAll] at he
  | .more hp hb hw hrest =>
    match others with
    | other :: next :: others =>
      simp only [Part.eraseAll, List.cons.injEq] at he
      obtain ⟨hother, hnext, hothers⟩ := he
      rw [Part.isWord_of_erase_eq hother, Part.isWord_of_erase_eq hnext] at hw
      exact .more (hp.of_erase_eq hother) hb hw
        (hrest.of_erase_eq (by simp only [Part.eraseAll, hnext, hothers]))
    | [] | [_] => simp [Part.eraseAll] at he

theorem SpellsCommands.of_erase_eq {spelling : Text} {commands others : List Command}
    (h : SpellsCommands spelling commands) (he : Program.erase commands = Program.erase others) :
    SpellsCommands spelling others := by
  match h with
  | .last _ hp =>
    match others with
    | [.mk parts _] =>
      exact .last _ (hp.of_erase_eq (by simpa [Program.erase, Command.erase] using he))
    | [] | _ :: _ :: _ => simp [Program.erase] at he
  | .more _ hp hs hrest =>
    match others with
    | .mk parts _ :: next :: others =>
      simp only [Program.erase, Command.erase, List.cons.injEq, Command.mk.injEq, and_true] at he
      obtain ⟨hparts, hnext, hothers⟩ := he
      exact .more _ (hp.of_erase_eq hparts) hs
        (hrest.of_erase_eq (by simp only [Program.erase, hnext, hothers]))
    | [] | [_] => simp [Program.erase] at he

theorem SpellsProgram.of_erase_eq {spelling : Text} {commands others : List Command}
    (h : SpellsProgram spelling commands) (he : Program.erase commands = Program.erase others) :
    SpellsProgram spelling others := by
  match h with
  | .empty hg =>
    match others with
    | [] => exact .empty hg
    | _ :: _ => simp [Program.erase] at he
  | .commands hb hs ha => exact .commands hb (hs.of_erase_eq he) ha

end

/-- A text spells all programs that are the same up to positions. -/
theorem Spells.of_erase_eq {text : Text} {program other : Program} (h : Spells text program)
    (he : Program.erase program = Program.erase other) : Spells text other := by
  cases h with
  | program hs => exact .program (hs.of_erase_eq he)
  | comment hs hc => exact .comment (hs.of_erase_eq he) hc

/-! ## What texts can spell -/

/-- The text of a string closes every brace that it opens. Other parts are not concerned. -/
def Part.Balanced : Part → Prop
  | .string text _ => text.Balanced
  | _ => True

/-- The part is of a kind that texts have words for, and its string, if it is one, is balanced. -/
structure Part.Spellable (part : Part) : Prop where
  native : part.Native
  balanced : part.Balanced

mutual

theorem SpellsPart.every {spelling : Text} {part : Part} (h : SpellsPart spelling part) :
    part.Every Part.Spellable := by
  match h with
  | .word _ _ _ => exact ⟨trivial, trivial⟩
  | .string _ hb => exact ⟨trivial, hb⟩
  | .filler _ hs => exact ⟨⟨trivial, trivial⟩, hs.every⟩

theorem SpellsParts.every {spelling : Text} {parts : List Part} (h : SpellsParts spelling parts) :
    Part.AllEvery Part.Spellable parts := by
  match h with
  | .last hp => exact ⟨hp.every, trivial⟩
  | .more hp _ _ hrest => exact ⟨hp.every, hrest.every⟩

theorem SpellsCommands.every {spelling : Text} {commands : List Command}
    (h : SpellsCommands spelling commands) :
    Program.Every Part.Spellable commands := by
  match h with
  | .last _ hp => exact ⟨hp.every, trivial⟩
  | .more _ hp _ hrest => exact ⟨hp.every, hrest.every⟩

theorem SpellsProgram.every {spelling : Text} {commands : List Command}
    (h : SpellsProgram spelling commands) :
    Program.Every Part.Spellable commands := by
  match h with
  | .empty _ => exact trivial
  | .commands _ hs _ => exact hs.every

end

theorem Spells.every {text : Text} {program : Program} (h : Spells text program) :
    Program.Every Part.Spellable program := by
  cases h with
  | program hs => exact hs.every
  | comment hs _ => exact hs.every

mutual

theorem SpellsPart.wellFormed {spelling : Text} {part : Part} (h : SpellsPart spelling part) :
    part.WellFormed := by
  match h with
  | .word _ _ hne => exact hne
  | .string _ _ => exact trivial
  | .filler _ hs => exact hs.wellFormed

theorem SpellsParts.wellFormed {spelling : Text} {parts : List Part}
    (h : SpellsParts spelling parts) : parts ≠ [] ∧ Part.AllWellFormed parts := by
  match h with
  | .last hp => exact ⟨List.cons_ne_nil _ _, hp.wellFormed, trivial⟩
  | .more hp _ _ hrest => exact ⟨List.cons_ne_nil _ _, hp.wellFormed, hrest.wellFormed.2⟩

theorem SpellsCommands.wellFormed {spelling : Text} {commands : List Command}
    (h : SpellsCommands spelling commands) : Program.WellFormed commands := by
  match h with
  | .last _ hp => exact ⟨hp.wellFormed, trivial⟩
  | .more _ hp _ hrest => exact ⟨hp.wellFormed, hrest.wellFormed⟩

theorem SpellsProgram.wellFormed {spelling : Text} {commands : List Command}
    (h : SpellsProgram spelling commands) : Program.WellFormed commands := by
  match h with
  | .empty _ => exact trivial
  | .commands _ hs _ => exact hs.wellFormed

end

/-- No word and no command that a text spells is empty. -/
theorem Spells.wellFormed {text : Text} {program : Program} (h : Spells text program) :
    Program.WellFormed program := by
  cases h with
  | program hs => exact hs.wellFormed
  | comment hs _ => exact hs.wellFormed

end Phrasebook
