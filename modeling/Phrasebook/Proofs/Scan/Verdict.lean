import Phrasebook.Proofs.Scan.Simulation

/-! # Endings as the scan tells them

Whatever can be read has the ending that the scan tells, so what is said about endings may be said
about the scan alone.

* `Text.WithinLimit` — the texts whose parentheses never come to the limit of depth.
* `exists_parse_of_withinLimit`, `ending_eq_verdict` — such texts are read, and what is read has the
  verdict of the scan for its ending.
* `Scan.cause_of_verdict`, `cause_of_parse_fatal` — the causes of fatal endings.
-/

namespace Phrasebook

section

variable [CallStack]

/-- However far the text is scanned, fewer parentheses are open than no reader can follow. -/
def Text.WithinLimit (text : Text) : Prop :=
  ∀ scan rest, Scan.Reaches .start text scan rest → scan.opened.length < nestingLimit

theorem Text.WithinLimit.of_length {text : Text} (h : text.length < nestingLimit) :
    text.WithinLimit := by
  intro scan rest hr
  have hle : scan.opened.length + rest.length ≤ 0 + text.length := hr.opened_length_le
  omega

/-- The reader and the scan agree about whole texts. -/
theorem read_atStart_follows (text : Text) :
    ((Reader.atLevel nestingLimit).read (.atStart text)).stop.Follows [] .start text :=
  Reader.atLevel_follows nestingLimit [] (Nat.zero_add _) .start text

theorem exists_parse_of_withinLimit {text : Text} (h : text.WithinLimit) :
    ∃ read, parse text = .ok read := by
  have hread := read_atStart_follows text
  rw [parse, parseWithin]
  generalize (Reader.atLevel nestingLimit).read (.atStart text) = reading at hread ⊢
  obtain ⟨commands, stop⟩ := reading
  cases stop with
  | endOfText => exact ⟨_, rfl⟩
  | closing stop => exact ⟨_, rfl⟩
  | failed fault =>
    cases fault with
    | malformed e => exact ⟨_, rfl⟩
    | tooDeep =>
      obtain ⟨deep, rest, hr, hd⟩ := hread
      exact absurd (h deep rest hr) (Nat.not_lt.2 hd)

/-- The ending of a text that can be followed is the verdict of the scan. -/
theorem ending_eq_verdict {text : Text} {read : Parse} (h : parse text = .ok read) :
    read.ending = Scan.start.verdict text := by
  have hread := read_atStart_follows text
  rw [parse, parseWithin] at h
  generalize (Reader.atLevel nestingLimit).read (.atStart text) = reading at h hread
  obtain ⟨commands, stop⟩ := reading
  cases stop with
  | endOfText =>
    cases h
    exact Eq.symm hread
  | closing stop =>
    cases h
    obtain ⟨hr, hm⟩ := hread
    obtain ⟨here, left⟩ := stop
    obtain ⟨c, rest, rfl, hc⟩ := Reader.rest_eq_of_mark? hm
    obtain rfl := (Mark.of_eq_iff rfl).1 hc
    exact (hr.verdict_eq.trans (Scan.verdict_cons_of_error rfl rest)).symm
  | failed fault =>
    cases fault with
    | malformed e =>
      cases h
      exact Eq.symm hread
    | tooDeep => cases h

theorem parse_of_ending {text : Text} {ending : Ending}
    (h : (parse text).toOption.map Parse.ending = some ending) :
    ∃ program, parse text = .ok ⟨program, ending⟩ := by
  cases hp : parse text with
  | error fault =>
    rw [hp] at h
    cases h
  | ok read =>
    rw [hp] at h
    cases h
    exact ⟨read.program, rfl⟩

end

namespace Scan

/-- A character is escaped by a backslash and by nothing else. -/
theorem eq_backslash_of_step {scan next : Scan} {c : Char} (h : scan.step c = .ok next)
    (he : next.escape? ≠ none) : c = '\\' := by
  unfold step at h
  split at h
  · cases h
    exact absurd rfl he
  · unfold stepNormal at h
    grind
  · cases h
    unfold stepComment at he
    grind
  · cases h
    unfold stepString at he
    grind

/-- The scan stops for closing characters only. -/
theorem isClosure_of_step {scan : Scan} {c : Char} {e : SyntaxError}
    (h : scan.step c = .error e) : e.cause.isClosure = true := by
  unfold step at h
  split at h
  · cases h
  · unfold stepNormal at h
    grind [SyntaxError.Cause.isClosure]
  · cases h
  · cases h

/-- Fatal is a closing character that closes nothing, or a backslash at the end: the last of the
    text, or one before it that the scan has met already. -/
theorem cause_of_verdict {scan : Scan} {text : Text} {e : SyntaxError}
    (h : scan.verdict text = .fatal e) :
    e.cause.isClosure = true
      ∨ e.cause = .escapeAtEndOfInput
        ∧ (text.getLast? = some '\\' ∨ text = [] ∧ scan.escape? ≠ none) := by
  induction text generalizing scan with
  | nil =>
    have hending : scan.ending = .fatal e := h
    unfold ending at hending
    split at hending
    · next he =>
      cases hending
      exact .inr ⟨rfl, .inr ⟨rfl, by simp [he]⟩⟩
    · cases hending
    · cases hending
    · cases hending
  | cons c rest ih =>
    cases hs : scan.step c with
    | error other =>
      rw [verdict_cons_of_error hs] at h
      cases h
      exact .inl (isClosure_of_step hs)
    | ok next =>
      rw [(Reaches.single hs rest).verdict_eq] at h
      obtain hclosure | ⟨hcause, hlast | ⟨rfl, he⟩⟩ := ih h
      · exact .inl hclosure
      · exact .inr ⟨hcause, .inl (by rw [List.getLast?_cons, hlast]; rfl)⟩
      · exact .inr ⟨hcause, .inl (by rw [eq_backslash_of_step hs he]; rfl)⟩

end Scan

theorem cause_of_parse_fatal [CallStack] {text : Text} {program : Program} {error : SyntaxError}
    (h : parse text = .ok ⟨program, .fatal error⟩) :
    error.cause.isClosure = true
      ∨ error.cause = .escapeAtEndOfInput ∧ text.getLast? = some '\\' := by
  obtain hclosure | ⟨hcause, hlast | ⟨rfl, he⟩⟩ := Scan.cause_of_verdict (ending_eq_verdict h).symm
  · exact .inl hclosure
  · exact .inr ⟨hcause, hlast⟩
  · exact absurd rfl he

end Phrasebook
