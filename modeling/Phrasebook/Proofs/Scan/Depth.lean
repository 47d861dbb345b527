import Phrasebook.Proofs.Grammar.Exactness
import Phrasebook.Proofs.Scan.Verdict

/-! # How deep a scan goes

While a scan passes over what spells a program, no more parentheses are open than fillers of the
program stand inside each other. So the texts that are read to their ends stay within the limit.

* `Scan.Passes` — a way through the scan with a bound for the open parentheses.
* `Text.OpensWithin` — texts that leave open what was open before them, with a bound in between.
* `SpellsPart.opensWithin` … `SpellsProgram.opensWithin` — the tree, rule by rule.
* `withinLimit_of_parse` — whole texts.
-/

namespace Phrasebook

namespace Scan

/-! ## Ways through a scan -/

/-- The text takes the scan from one state to another, and in no state on the way, both ends
    included, there are more parentheses open than the bound allows. -/
inductive Passes (bound : Nat) : Scan → Text → Scan → Prop where
  | nil {scan : Scan} : scan.opened.length ≤ bound → Passes bound scan [] scan
  | cons {scan next last : Scan} {c : Char} {text : Text} :
      scan.opened.length ≤ bound → scan.step c = .ok next → Passes bound next text last →
      Passes bound scan (c :: text) last

namespace Passes

variable {bound : Nat} {scan middle last : Scan} {text rest : Text}

theorem append (h : Passes bound scan text middle) (hr : Passes bound middle rest last) :
    Passes bound scan (text ++ rest) last := by
  induction h with
  | nil _ => exact hr
  | cons hb hs _ ih => exact .cons hb hs (ih hr)

theorem mono {more : Nat} (h : Passes bound scan text last) (hle : bound ≤ more) :
    Passes more scan text last := by
  induction h with
  | nil hb => exact .nil (Nat.le_trans hb hle)
  | cons hb hs _ ih => exact .cons (Nat.le_trans hb hle) hs ih

/-- As the scan has no choice, the bound holds for every state that it reaches. -/
theorem opened_le (h : Passes bound scan text last) {state : Scan}
    (hr : Reaches scan text state rest) : state.opened.length ≤ bound := by
  induction h with
  | nil hb =>
    cases hr
    exact hb
  | cons hb hs _ ih =>
    cases hr with
    | refl => exact hb
    | step hs' hr =>
      rw [hs] at hs'
      cases hs'
      exact ih hr

end Passes

variable {bound : Nat} {opened : List Position}

theorem passes_comment (hb : opened.length ≤ bound) {comment : Text} (hc : '\n' ∉ comment)
    (here : Position) : ∃ after, Passes bound ⟨here, opened, .comment, none⟩ comment
      ⟨after, opened, .comment, none⟩ := by
  induction comment generalizing here with
  | nil => exact ⟨here, .nil hb⟩
  | cons c comment ih =>
    obtain ⟨hne, hrest⟩ := not_or.1 (mt List.mem_cons.2 hc)
    obtain ⟨after, hpasses⟩ := ih hrest (here.advance c)
    refine ⟨after, .cons hb ?_ hpasses⟩
    simp [step, stepComment, Ne.symm hne]

/-- Up to the brace that closes it, a string opens no parenthesis. -/
theorem passes_string (hb : opened.length ≤ bound) {nesting : Nat} {text : Text}
    (h : text.openBraces nesting = some 0) (opening here : Position) :
    ∃ after, Passes bound ⟨here, opened, .string opening nesting, none⟩ (text ++ ['}'])
      (.normal opened after) := by
  fun_induction Text.openBraces nesting text generalizing here with
  | case1 nesting =>
    obtain rfl : nesting = 0 := by simpa using h
    exact ⟨here.advance '}', .cons hb rfl (.nil hb)⟩
  | case2 => cases h
  | case3 nesting d rest ih =>
    obtain ⟨after, hpasses⟩ := ih h ((here.advance '\\').advance d)
    exact ⟨after, .cons hb rfl (.cons hb rfl hpasses)⟩
  | case4 nesting rest _ ih =>
    obtain ⟨after, hpasses⟩ := ih h (here.advance '{')
    exact ⟨after, .cons hb rfl hpasses⟩
  | case5 => cases h
  | case6 rest nesting _ _ ih =>
    obtain ⟨after, hpasses⟩ := ih h (here.advance '}')
    exact ⟨after, .cons hb rfl hpasses⟩
  | case7 nesting c rest he ho hc ih =>
    obtain ⟨after, hpasses⟩ := ih h (here.advance c)
    refine ⟨after, .cons hb ?_ hpasses⟩
    exact step_inString (mt (Mark.of_eq_iff rfl).1 he) (mt (Mark.of_eq_iff rfl).1 ho)
      (mt (Mark.of_eq_iff rfl).1 hc)

end Scan

/-! ## Texts that close what they open -/

namespace Text

/-- Behind the text the same parentheses are open as before it, and within it no more than `n` in
    addition to them. -/
def OpensWithin (n : Nat) (text : Text) : Prop :=
  ∀ opened here, ∃ after,
    Scan.Passes (opened.length + n) (.normal opened here) text (.normal opened after)

namespace OpensWithin

variable {n : Nat} {text rest : Text}

theorem nil (n : Nat) : OpensWithin n [] :=
  fun _ here => ⟨here, .nil (Nat.le_add_right _ _)⟩

theorem append (h : text.OpensWithin n) (hr : rest.OpensWithin n) :
    (text ++ rest).OpensWithin n := by
  intro opened here
  obtain ⟨middle, htext⟩ := h opened here
  obtain ⟨after, hrest⟩ := hr opened middle
  exact ⟨after, htext.append hrest⟩

theorem mono {m : Nat} (h : text.OpensWithin n) (hle : n ≤ m) : text.OpensWithin m := by
  intro opened here
  obtain ⟨after, htext⟩ := h opened here
  exact ⟨after, htext.mono (Nat.add_le_add_left hle _)⟩

theorem cons {c : Char}
    (hm : Mark.of c = .plain ∨ Mark.of c = .blank ∨ Mark.of c = .terminator)
    (h : rest.OpensWithin n) : OpensWithin n (c :: rest) := by
  intro opened here
  obtain ⟨after, hrest⟩ := h opened (here.advance c)
  exact ⟨after, .cons (Nat.le_add_right _ _) (Scan.step_other hm) hrest⟩

theorem escaped (c : Char) (h : rest.OpensWithin n) : OpensWithin n ('\\' :: c :: rest) := by
  intro opened here
  obtain ⟨after, hrest⟩ := h opened ((here.advance '\\').advance c)
  have hle : opened.length ≤ opened.length + n := Nat.le_add_right _ _
  exact ⟨after, .cons hle rfl (.cons hle rfl hrest)⟩

theorem comment {comment : Text} (hc : '\n' ∉ comment) (h : rest.OpensWithin n) :
    OpensWithin n ('|' :: comment ++ '\n' :: rest) := by
  intro opened here
  have hle : opened.length ≤ opened.length + n := Nat.le_add_right _ _
  obtain ⟨middle, hcomment⟩ := Scan.passes_comment hle hc (here.advance '|')
  obtain ⟨after, hrest⟩ := h opened (middle.advance '\n')
  exact ⟨after, .cons hle rfl (hcomment.append (.cons hle rfl hrest))⟩

theorem string (hb : text.Balanced) : text.braced.OpensWithin 0 := by
  intro opened here
  obtain ⟨after, hstring⟩ :=
    Scan.passes_string (Nat.le_refl opened.length) hb here (here.advance '{')
  exact ⟨after, .cons (Nat.le_refl _) rfl hstring⟩

theorem filler (h : text.OpensWithin n) : OpensWithin (n + 1) ('(' :: text ++ [')']) := by
  intro opened here
  obtain ⟨middle, hinside⟩ := h (here :: opened) (here.advance '(')
  have hle : opened.length ≤ opened.length + (n + 1) := Nat.le_add_right _ _
  have hbound : (here :: opened).length + n = opened.length + (n + 1) := by
    rw [List.length_cons, Nat.succ_add_eq_add_succ]
  rw [hbound] at hinside
  have hclose : (here :: opened).length ≤ opened.length + (n + 1) := hbound ▸ Nat.le_add_right _ _
  exact ⟨middle.advance ')', .cons hle rfl (hinside.append (.cons hclose rfl (.nil hle)))⟩

end OpensWithin

end Text

/-! ## Spellings -/

theorem SpellsWord.opensWithin {spelling text : Text} (h : SpellsWord spelling text) (n : Nat) :
    spelling.OpensWithin n := by
  induction h with
  | nil => exact .nil n
  | bare hc _ ih => exact .cons (.inl (isBare_iff.1 hc)) ih
  | escaped c _ ih => exact .escaped c ih

theorem Gap.opensWithin {gap : Text} (h : Gap gap) (n : Nat) : gap.OpensWithin n := by
  induction h with
  | nil => exact .nil n
  | char hc _ ih => exact .cons (.inr (skipped_iff.1 hc)) ih
  | comment hc _ ih => exact .comment hc ih

theorem Blanks.opensWithin {blanks : Text} (h : Blanks blanks) (n : Nat) :
    blanks.OpensWithin n := by
  have hgap := h.gap .nil
  rw [List.append_nil] at hgap
  exact hgap.opensWithin n

mutual

theorem SpellsPart.opensWithin {spelling : Text} {part : Part} (h : SpellsPart spelling part) :
    spelling.OpensWithin part.nesting := by
  match h with
  | .word _ hw _ => exact hw.opensWithin 0
  | .string _ hb => exact .string hb
  | .filler _ hs => exact hs.opensWithin.filler

theorem SpellsParts.opensWithin {spelling : Text} {parts : List Part}
    (h : SpellsParts spelling parts) : spelling.OpensWithin (Part.nestingAll parts) := by
  match h with
  | .last hp => exact hp.opensWithin.mono (Nat.le_max_left _ _)
  | .more hp hb _ hrest =>
    exact (hp.opensWithin.mono (Nat.le_max_left _ _)).append
      ((hb.opensWithin _).append (hrest.opensWithin.mono (Nat.le_max_right _ _)))

theorem SpellsCommands.opensWithin {spelling : Text} {commands : List Command}
    (h : SpellsCommands spelling commands) : spelling.OpensWithin (Program.nesting commands) := by
  match h with
  | .last _ hp => exact hp.opensWithin.mono (Nat.le_max_left _ _)
  | .more _ hp hs hrest =>
    exact (hp.opensWithin.mono (Nat.le_max_left _ _)).append
      ((hs.gap.opensWithin _).append (hrest.opensWithin.mono (Nat.le_max_right _ _)))

theorem SpellsProgram.opensWithin {spelling : Text} {commands : List Command}
    (h : SpellsProgram spelling commands) : spelling.OpensWithin (Program.nesting commands) := by
  match h with
  | .empty hg => exact hg.opensWithin _
  | .commands hb hs ha => exact (hb.opensWithin _).append (hs.opensWithin.append (ha.opensWithin _))

end

/-! ## Whole texts -/

theorem Spells.exists_passes {text : Text} {program : Program} (h : Spells text program) :
    ∃ last, Scan.Passes (Program.nesting program) .start text last := by
  have hstart : ∀ {text : Text}, text.OpensWithin (Program.nesting program) →
      ∃ after, Scan.Passes (Program.nesting program) .start text (.normal [] after) := by
    intro text hopens
    obtain ⟨after, hpasses⟩ := hopens [] .start
    rw [List.length_nil, Nat.zero_add] at hpasses
    exact ⟨after, hpasses⟩
  cases h with
  | program hs =>
    obtain ⟨after, hpasses⟩ := hstart hs.opensWithin
    exact ⟨_, hpasses⟩
  | @comment text comment _ hs hc =>
    obtain ⟨middle, hpasses⟩ := hstart hs.opensWithin
    obtain ⟨after, hcomment⟩ : ∃ after, Scan.Passes (Program.nesting program)
        ⟨middle.advance '|', [], .comment, none⟩ comment ⟨after, [], .comment, none⟩ :=
      Scan.passes_comment (Nat.zero_le _) hc _
    exact ⟨_, hpasses.append (.cons (Nat.zero_le _) rfl hcomment)⟩

/-- A text that is read to its end is within the limit. -/
theorem withinLimit_of_parse [CallStack] {text : Text} {program : Program}
    (h : parse text = .ok ⟨program, .clean⟩) : text.WithinLimit := by
  obtain ⟨hs, hn⟩ := spells_of_parse h
  obtain ⟨last, hpasses⟩ := hs.exists_passes
  intro scan rest hr
  exact Nat.lt_of_le_of_lt (hpasses.opened_le hr) hn

end Phrasebook
