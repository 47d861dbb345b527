import Phrasebook.Proofs.Grammar.Spelling
import Phrasebook.Proofs.Reader.Steps

/-! # Where the pieces of a spelling begin and end

The grammar names characters, the reader asks for their marks. Here both are brought together.

* `isBare_iff`, `skipped_iff` — the characters of words and of gaps by their marks.
* `Gap.endsCommand`, `Separator.endsCommand` — what ends a command.
* `Blanks.gap`, `Gap.append`, `SpellsProgram.gap` — gaps put together from pieces.
* `SpellsPart.head`, `SpellsParts.head` — the first character of a spelling tells what it spells.
-/

namespace Phrasebook

/-! ## Marks of the grammar's characters -/

theorem isBare_iff {c : Char} : IsBare c ↔ Mark.of c = .plain := Mark.of_eq_plain.symm

/-- The characters of a gap outside comments are those that programs are read past. -/
theorem skipped_iff {c : Char} :
    isBlank c = true ∨ c = ';' ↔ Mark.of c = .blank ∨ Mark.of c = .terminator := by
  rw [Mark.of_eq_blank, Mark.of_eq_terminator]
  have hb := isBlank_lineFeed
  grind

/-! ## Where commands end -/

theorem Gap.endsCommand {gap rest : Text} (hg : Gap gap) (h : EndsCommand rest) :
    EndsCommand (gap ++ rest) := by
  induction hg with
  | nil => exact h
  | char hc _ ih =>
    rcases skipped_iff.1 hc with hm | hm
    · exact .blank hm ih
    · exact .mark (.inl hm)
  | comment => exact .mark (.inr (.inl (Mark.of_char rfl)))

/-- A separator ends a command whatever comes behind it. -/
theorem Separator.endsCommand {separator : Text} (hs : Separator separator) (rest : Text) :
    EndsCommand (separator ++ rest) := by
  induction hs with
  | terminator hc _ => exact .mark (.inl (Mark.of_eq_terminator.2 hc.symm))
  | @blank c separator hc hs ih =>
    rcases skipped_iff.1 (.inl hc) with hm | hm
    · exact .blank hm ih
    · exact .mark (.inl hm)
  | comment => exact .mark (.inr (.inl (Mark.of_char rfl)))

theorem Separator.gap {separator : Text} (hs : Separator separator) : Gap separator := by
  induction hs with
  | @terminator c gap hc hg =>
    refine .char ?_ hg
    rcases hc with rfl | rfl
    · exact .inr rfl
    · exact .inl isBlank_lineFeed
  | blank hc _ ih => exact .char (.inl hc) ih
  | comment hc hg => exact .comment hc hg

/-! ## Gaps in pieces -/

theorem gap_of_forall {gap : Text} (h : ∀ c ∈ gap, isBlank c = true ∨ c = ';') : Gap gap := by
  induction gap with
  | nil => exact .nil
  | cons c gap ih =>
    obtain ⟨hc, hrest⟩ := List.forall_mem_cons.1 h
    exact .char hc (ih hrest)

theorem Blanks.nil : Blanks [] := by
  intro c hc
  cases hc

theorem Blanks.append {blanks more : Text} (hb : Blanks blanks) (hm : Blanks more) :
    Blanks (blanks ++ more) := by
  intro c hc
  rcases List.mem_append.1 hc with hc | hc
  · exact hb c hc
  · exact hm c hc

theorem Blanks.gap {blanks gap : Text} (hb : Blanks blanks) (hg : Gap gap) :
    Gap (blanks ++ gap) := by
  induction blanks with
  | nil => exact hg
  | cons c blanks ih =>
    obtain ⟨hc, hrest⟩ := List.forall_mem_cons.1 hb
    exact .char (.inl hc.1) (ih hrest)

theorem Blanks.separator {blanks separator : Text} (hb : Blanks blanks)
    (hs : Separator separator) : Separator (blanks ++ separator) := by
  induction blanks with
  | nil => exact hs
  | cons c blanks ih =>
    obtain ⟨hc, hrest⟩ := List.forall_mem_cons.1 hb
    exact .blank hc.1 (ih hrest)

theorem Gap.append {gap more : Text} (hg : Gap gap) (hm : Gap more) : Gap (gap ++ more) := by
  induction hg with
  | nil => exact hm
  | char hc _ ih => exact .char hc ih
  | @comment comment gap hc _ ih =>
    have hsplit : ('|' :: comment ++ '\n' :: gap) ++ more
        = '|' :: comment ++ '\n' :: (gap ++ more) := by simp
    rw [hsplit]
    exact .comment hc ih

theorem SpellsProgram.gap {gap text : Text} {commands : List Command} (hg : Gap gap)
    (h : SpellsProgram text commands) : SpellsProgram (gap ++ text) commands := by
  cases h with
  | empty hrest => exact .empty (hg.append hrest)
  | @commands before spelling after _ hb hs ha =>
    rw [← List.append_assoc]
    exact .commands (hg.append hb) hs ha

/-! ## Where parts and commands begin -/

/-- A part begins with a character that opens parts, a word with one of its own. -/
theorem SpellsPart.head {spelling : Text} {part : Part} (h : SpellsPart spelling part) :
    ∃ c rest, spelling = c :: rest ∧ (Mark.of c).opensPart = true
      ∧ (Mark.of c).inWord = part.isWord := by
  cases h with
  | word _ hw hne =>
    -- The word is not empty, so neither is its spelling.
    cases hw with
    | nil => exact absurd rfl hne
    | bare hc _ => exact ⟨_, _, rfl, by rw [isBare_iff.1 hc]; rfl, by rw [isBare_iff.1 hc]; rfl⟩
    | escaped c _ => exact ⟨'\\', _, rfl, rfl, rfl⟩
  | string => exact ⟨'{', _, rfl, rfl, rfl⟩
  | filler => exact ⟨'(', _, rfl, rfl, rfl⟩

theorem SpellsParts.head {spelling : Text} {first : Part} {parts : List Part}
    (h : SpellsParts spelling (first :: parts)) :
    ∃ c rest, spelling = c :: rest ∧ (Mark.of c).opensPart = true
      ∧ (Mark.of c).inWord = first.isWord := by
  cases h with
  | last hp => exact hp.head
  | more hp _ _ _ =>
    obtain ⟨c, rest, rfl, hc⟩ := hp.head
    exact ⟨c, _, rfl, hc⟩

/-- A word before further parts ends, as white space divides it from another word. -/
theorem SpellsParts.endsWord_blanks {spelling blanks : Text} {first : Part} {parts : List Part}
    (h : SpellsParts spelling (first :: parts)) (hb : Blanks blanks)
    (hw : first.isWord = true → blanks ≠ []) (rest : Text) :
    EndsWord (blanks ++ (spelling ++ rest)) := by
  intro c hc
  cases blanks with
  | nil =>
    -- Without white space the next part is no word, and its first character is in none.
    obtain ⟨d, tail, rfl, _, hd⟩ := h.head
    obtain rfl : d = c := by simpa using hc
    rw [hd]
    exact Bool.eq_false_iff.2 fun hword => hw hword rfl
  | cons b blanks =>
    obtain rfl : b = c := by simpa using hc
    rw [Mark.of_eq_blank.2 (hb b List.mem_cons_self)]
    rfl

theorem SpellsParts.opens {spelling : Text} {parts : List Part} (h : SpellsParts spelling parts) :
    ∃ c rest, spelling = c :: rest ∧ (Mark.of c).opensPart = true := by
  cases parts with
  | nil => cases h
  | cons first parts =>
    obtain ⟨c, rest, hc, ho, _⟩ := h.head
    exact ⟨c, rest, hc, ho⟩

theorem SpellsCommands.opens {spelling : Text} {commands : List Command}
    (h : SpellsCommands spelling commands) :
    ∃ c rest, spelling = c :: rest ∧ (Mark.of c).opensPart = true := by
  cases h with
  | last _ hp => exact hp.opens
  | more _ hp _ _ =>
    obtain ⟨c, rest, rfl, ho⟩ := hp.opens
    exact ⟨c, _, rfl, ho⟩

/-- A line feed in front of a program belongs to its first gap. -/
theorem SpellsProgram.of_lineFeed {text : Text} {commands : List Command}
    (h : SpellsProgram ('\n' :: text) commands) : SpellsProgram text commands := by
  generalize hw : '\n' :: text = whole at h
  cases h with
  | empty hg =>
    subst hw
    cases hg with
    | char _ hg => exact .empty hg
  | @commands before spelling after commands hb hs ha =>
    cases hb with
    | nil =>
      -- No command begins with a line feed.
      obtain ⟨c, rest, rfl, ho⟩ := hs.opens
      obtain ⟨rfl, -⟩ := List.cons.inj hw
      cases ho
    | char _ hb =>
      obtain ⟨rfl, rfl⟩ := List.cons.inj hw
      exact .commands hb hs ha
    | comment hc hb => simp at hw

end Phrasebook
