import Phrasebook.Proofs.Grammar.Boundaries
import Phrasebook.Proofs.Scan.Verdict

/-! # Texts that leave the scan as it was

Behind some texts the scan is where it began, but for the position. As positions take no part in it,
what follows such a text is scanned as if it stood alone.

* `Scan.erase`, `Scan.run_erase_eq` — scans without positions.
* `Text.Settled` — the texts. Among them are those of blanks, and those that are read to their ends
  and end in a line feed (`Text.Settled.of_isAllBlank`, `Text.Settled.of_parse`).
* `Text.Settled.parse_append_iff` — what follows, to be read to its end.
* `Text.EscapesLineFeed`, `parse_dropLast` — the line feed that such a text ends in may be escaped.
-/

namespace Phrasebook

namespace Scan

/-! ## Scans without positions -/

def Mode.erase : Mode → Mode
  | normal => normal
  | comment => comment
  | string _ nesting => string .start nesting

/-- The state without its positions. -/
def erase (scan : Scan) : Scan :=
  ⟨.start, scan.opened.map fun _ => .start, scan.mode.erase, scan.escape?.map fun _ => .start⟩

theorem erase_opened_length (scan : Scan) : scan.erase.opened.length = scan.opened.length :=
  List.length_map _

@[simp] theorem Mode.erase_normal : normal.erase = normal := rfl

@[simp] theorem Mode.erase_comment : comment.erase = comment := rfl

@[simp] theorem Mode.erase_string (opening : Position) (nesting : Nat) :
    (string opening nesting).erase = string .start nesting := rfl

@[simp] theorem Mode.erase_erase (mode : Mode) : mode.erase.erase = mode.erase := by
  cases mode <;> rfl

theorem stepNormal_erase (scan : Scan) (c : Char) :
    (scan.stepNormal c).toOption.map erase = (scan.erase.stepNormal c).toOption.map erase := by
  obtain ⟨here, opened, mode, escape?⟩ := scan
  unfold stepNormal
  dsimp only [erase]
  cases opened <;> dsimp only [List.map] <;> repeat' split
  all_goals simp [erase, Except.toOption, Function.comp_def]

theorem stepComment_erase (scan : Scan) (c : Char) :
    (scan.stepComment c).erase = (scan.erase.stepComment c).erase := by
  unfold stepComment
  dsimp only
  split <;> simp [erase, Function.comp_def]

theorem stepString_erase (opening : Position) (nesting : Nat) (scan : Scan) (c : Char) :
    (scan.stepString opening nesting c).erase = (scan.erase.stepString .start nesting c).erase := by
  unfold stepString
  dsimp only
  cases nesting <;> repeat' split
  all_goals simp [erase, Function.comp_def]

/-- A character does to a state what it does to the state without positions. -/
theorem step_erase (scan : Scan) (c : Char) :
    (scan.step c).toOption.map erase = (scan.erase.step c).toOption.map erase := by
  obtain ⟨here, opened, mode, escape?⟩ := scan
  cases escape? with
  | some backslash => simp [step, erase, Except.toOption]
  | none =>
    cases mode with
    | normal => exact stepNormal_erase _ c
    | comment => exact congrArg some (stepComment_erase _ c)
    | string opening nesting => exact congrArg some (stepString_erase opening nesting _ c)

/-- States that only positions tell apart come to states that only positions tell apart. -/
theorem run_erase_eq {scan other : Scan} (h : scan.erase = other.erase) (text : Text) :
    (scan.run text).toOption.map erase = (other.run text).toOption.map erase := by
  induction text generalizing scan other with
  | nil => exact congrArg some h
  | cons c rest ih =>
    have hstep : (scan.step c).toOption.map erase = (other.step c).toOption.map erase := by
      rw [step_erase, h, ← step_erase]
    rw [run, run, List.foldlM_cons, List.foldlM_cons]
    cases hs : scan.step c with
    | error e =>
      cases ho : other.step c with
      | error e' => rfl
      | ok next' => simp [hs, ho, Except.toOption] at hstep
    | ok next =>
      cases ho : other.step c with
      | error e' => simp [hs, ho, Except.toOption] at hstep
      | ok next' =>
        rw [hs, ho] at hstep
        exact ih (Option.some.inj hstep)

theorem exists_run_of_erase_eq {scan other last : Scan} (h : scan.erase = other.erase) {text : Text}
    (hr : scan.run text = .ok last) :
    ∃ last', other.run text = .ok last' ∧ last'.erase = last.erase := by
  have heq := run_erase_eq h text
  rw [hr] at heq
  cases ho : other.run text with
  | error e =>
    rw [ho] at heq
    cases heq
  | ok last' =>
    rw [ho] at heq
    exact ⟨last', rfl, (Option.some.inj heq).symm⟩

theorem ending_erase_eq_clean {scan : Scan} :
    scan.erase.ending = .clean ↔ scan.ending = .clean := by
  obtain ⟨here, opened, mode, escape?⟩ := scan
  cases escape? <;> cases mode <;> cases opened <;> simp [ending, erase]

theorem verdict_eq_clean_iff {scan : Scan} {text : Text} :
    scan.verdict text = .clean ↔ ∃ last, scan.run text = .ok last ∧ last.ending = .clean := by
  unfold verdict
  cases scan.run text <;> simp

theorem verdict_eq_clean_of_erase_eq {scan other : Scan} (h : scan.erase = other.erase)
    {text : Text} (hv : scan.verdict text = .clean) : other.verdict text = .clean := by
  obtain ⟨last, hr, hclean⟩ := verdict_eq_clean_iff.1 hv
  obtain ⟨last', hr', heq⟩ := exists_run_of_erase_eq h hr
  refine verdict_eq_clean_iff.2 ⟨last', hr', ?_⟩
  rw [← ending_erase_eq_clean, heq, ending_erase_eq_clean]
  exact hclean

end Scan

/-! ## Beginnings within the limit -/

theorem parse_clean_iff_verdict [CallStack] {text : Text} (h : text.WithinLimit) :
    (∃ program, parse text = .ok ⟨program, .clean⟩) ↔ Scan.start.verdict text = .clean := by
  obtain ⟨⟨program, ending⟩, hread⟩ := exists_parse_of_withinLimit h
  obtain rfl : ending = Scan.start.verdict text := ending_eq_verdict hread
  rw [hread]
  constructor
  · rintro ⟨_, heq⟩
    exact congrArg Parse.ending (Except.ok.inj heq)
  · intro hv
    exact ⟨program, by rw [hv]⟩

namespace Text

theorem WithinLimit.of_append [CallStack] {text rest : Text} (h : (text ++ rest).WithinLimit) :
    text.WithinLimit := by
  intro scan left hr
  obtain ⟨head, rfl, hrun⟩ := Scan.reaches_iff.1 hr
  exact h scan (left ++ rest) (Scan.reaches_iff.2 ⟨head, List.append_assoc _ _ _, hrun⟩)

/-! ## Settled texts -/

/-- Behind the text the scan is where it began, but for the position. -/
def Settled (text : Text) : Prop := ∃ here, Scan.start.run text = .ok (.normal [] here)

namespace Settled

variable {text rest : Text}

theorem reaches (h : text.Settled) (rest : Text) :
    ∃ here, Scan.Reaches .start (text ++ rest) (.normal [] here) rest := by
  obtain ⟨here, hr⟩ := h
  exact ⟨here, Scan.reaches_iff.2 ⟨text, rfl, hr⟩⟩

theorem withinLimit [CallStack] (h : text.Settled) (hl : (text ++ rest).WithinLimit) :
    rest.WithinLimit := by
  intro scan left hr
  obtain ⟨here, hreach⟩ := h.reaches rest
  obtain ⟨head, rfl, hrun⟩ := Scan.reaches_iff.1 hr
  have hbegin : Scan.start.erase = (Scan.normal [] here).erase := rfl
  obtain ⟨scan', hrun', heq⟩ := Scan.exists_run_of_erase_eq hbegin hrun
  have hlt := hl scan' left (hreach.trans (Scan.reaches_iff.2 ⟨head, rfl, hrun'⟩))
  rwa [← Scan.erase_opened_length, heq, Scan.erase_opened_length] at hlt

/-- Behind a settled text, another is read to its end exactly if it is so on its own. -/
theorem parse_append_iff [CallStack] (h : text.Settled) (hl : (text ++ rest).WithinLimit) :
    (∃ program, parse (text ++ rest) = .ok ⟨program, .clean⟩)
      ↔ ∃ program, parse rest = .ok ⟨program, .clean⟩ := by
  obtain ⟨here, hreach⟩ := h.reaches rest
  have hbegin : (Scan.normal [] here).erase = Scan.start.erase := rfl
  rw [parse_clean_iff_verdict hl, parse_clean_iff_verdict (h.withinLimit hl), hreach.verdict_eq]
  exact ⟨Scan.verdict_eq_clean_of_erase_eq hbegin, Scan.verdict_eq_clean_of_erase_eq hbegin.symm⟩

theorem of_isAllBlank (h : text.isAllBlank = true) : text.Settled := by
  have hrun : ∀ (text : Text) here, text.isAllBlank = true →
      ∃ after, (Scan.normal [] here).run text = .ok (.normal [] after) := by
    intro text
    induction text with
    | nil => exact fun here _ => ⟨here, rfl⟩
    | cons c rest ih =>
      intro here hblank
      obtain ⟨hc, hrest⟩ := List.forall_mem_cons.1 (List.all_eq_true.1 hblank)
      rw [Scan.run_cons_of_ok (Scan.step_other (.inr (skipped_iff.1 (.inl hc))))]
      exact ih _ (List.all_eq_true.2 hrest)
  exact hrun text .start h

end Settled

end Text

/-! ## Line feeds at the end -/

namespace Scan

theorem run_concat {scan last : Scan} {text : Text} {c : Char} :
    scan.run (text ++ [c]) = .ok last
      ↔ ∃ before, scan.run text = .ok before ∧ before.step c = .ok last := by
  have hsingle : ∀ before : Scan, List.foldlM step before [c] = before.step c := by
    intro before
    rw [List.foldlM_cons]
    cases before.step c <;> rfl
  rw [run, List.foldlM_append, ← run]
  cases scan.run text with
  | error e =>
    constructor
    · intro h
      cases h
    · rintro ⟨_, h, _⟩
      cases h
  | ok before =>
    show List.foldlM step before [c] = .ok last ↔ _
    rw [hsingle]
    constructor
    · exact fun h => ⟨before, rfl, h⟩
    · rintro ⟨_, ⟨⟩, h⟩
      exact h

/-- Backslashes in comments escape nothing. -/
def Plain (scan : Scan) : Prop := scan.mode = .comment → scan.escape? = none

theorem plain_of_step {scan next : Scan} {c : Char} (h : scan.step c = .ok next) : next.Plain := by
  unfold Plain
  unfold step at h
  split at h
  · cases h
    exact fun _ => rfl
  · unfold stepNormal at h
    grind
  · cases h
    unfold stepComment
    grind
  · cases h
    unfold stepString
    grind

theorem plain_of_run {last : Scan} {text : Text} (h : start.run text = .ok last) : last.Plain := by
  obtain rfl | ⟨init, c, rfl⟩ := text.eq_nil_or_concat
  · cases h
    exact fun _ => rfl
  · rw [List.concat_eq_append] at h
    obtain ⟨before, -, hs⟩ := run_concat.1 h
    exact plain_of_step hs

/-- A line feed that completes a text leaves nothing open. It did not complete the text, or it was
    escaped. -/
theorem normal_of_step_lineFeed {scan next : Scan} (hp : scan.Plain)
    (h : scan.step '\n' = .ok next) (hc : next.ending = .clean) :
    next = .normal [] next.here
      ∧ (scan.ending = .clean ∨ ∃ e, scan.ending = .fatal e ∧ e.cause = .escapeAtEndOfInput) := by
  obtain ⟨here, opened, mode, escape?⟩ := scan
  cases escape? with
  | some backslash =>
    cases h
    refine ⟨?_, .inr ⟨_, rfl, rfl⟩⟩
    cases mode with
    | normal =>
      cases opened with
      | nil => rfl
      | cons _ _ => cases hc
    | comment => cases hp rfl
    | string _ _ => cases hc
  | none =>
    cases mode with
    | normal =>
      cases h
      cases opened with
      | nil => exact ⟨rfl, .inl rfl⟩
      | cons _ _ => cases hc
    | comment =>
      cases h
      cases opened with
      | nil => exact ⟨rfl, .inl rfl⟩
      | cons _ _ => cases hc
    | string _ _ =>
      cases h
      cases hc

end Scan

theorem verdict_of_lineFeed {text : Text} (h : Scan.start.verdict (text ++ ['\n']) = .clean) :
    (text ++ ['\n']).Settled
      ∧ (Scan.start.verdict text = .clean
        ∨ ∃ e, Scan.start.verdict text = .fatal e ∧ e.cause = .escapeAtEndOfInput) := by
  obtain ⟨last, hr, hc⟩ := Scan.verdict_eq_clean_iff.1 h
  obtain ⟨before, hbefore, hs⟩ := Scan.run_concat.1 hr
  obtain ⟨hlast, hending⟩ := Scan.normal_of_step_lineFeed (Scan.plain_of_run hbefore) hs hc
  have hv : Scan.start.verdict text = before.ending := by rw [Scan.verdict, hbefore]
  exact ⟨⟨last.here, by rw [hr, ← hlast]⟩, by rw [hv]; exact hending⟩

variable [CallStack]

/-- A text that is read to its end and ends in a line feed is settled. -/
theorem Text.Settled.of_parse {text : Text} {program : Program} (hline : text.getLast? = some '\n')
    (h : parse text = .ok ⟨program, .clean⟩) : text.Settled := by
  obtain ⟨init, rfl⟩ := List.getLast?_eq_some_iff.1 hline
  exact (verdict_of_lineFeed (ending_eq_verdict h).symm).1

/-- The line feed at the end of the text is escaped: without it there is a backslash at the end. -/
def Text.EscapesLineFeed (text : Text) : Prop :=
  ∃ program e, parse text.dropLast = .ok ⟨program, .fatal e⟩ ∧ e.cause = .escapeAtEndOfInput

/-- If it is not, the text is read to its end without it. -/
theorem parse_dropLast {text : Text} {program : Program} (hl : text.WithinLimit)
    (hline : text.getLast? = some '\n') (h : parse text = .ok ⟨program, .clean⟩) :
    text.EscapesLineFeed ∨ ∃ program, parse text.dropLast = .ok ⟨program, .clean⟩ := by
  obtain ⟨init, rfl⟩ := List.getLast?_eq_some_iff.1 hline
  have hinit : Text.WithinLimit init := hl.of_append
  rw [Text.EscapesLineFeed, List.dropLast_concat]
  obtain hclean | ⟨e, hfatal, hcause⟩ := (verdict_of_lineFeed (ending_eq_verdict h).symm).2
  · exact .inr ((parse_clean_iff_verdict hinit).2 hclean)
  · obtain ⟨⟨read, ending⟩, hread⟩ := exists_parse_of_withinLimit hinit
    obtain rfl : ending = .fatal e := (ending_eq_verdict hread).trans hfatal
    exact .inl ⟨read, e, hread, hcause⟩

end Phrasebook
