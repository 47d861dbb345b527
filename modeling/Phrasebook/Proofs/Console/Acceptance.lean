import Phrasebook.Proofs.Console.Chunks
import Phrasebook.Proofs.Scan.Permanence
import Phrasebook.Proofs.Scan.Settled

/-! # Lines and whole texts

A console that is fed line by line rejects nothing, and holds nothing back, exactly if the lines
make up a text that can be read to its end.

* `LineBuffer.parse_append_ne_of_fatal` — errors that no further line mends.
* `LineBuffer.Waits` — what a console holds at its prompts.
* `LineBuffer.parse_flatten_iff` — the text of the lines and the chunks it is cut into.
* `Console.accepts_iff` — consoles.
-/

namespace Phrasebook

section

variable {host : Host} [CallStack]

namespace LineBuffer

/-- No further text mends an error in a text that ends in a line feed, as there is no backslash at
    its end. -/
theorem parse_append_ne_of_fatal {text : Text} {program : Program} {e : SyntaxError}
    (hline : text.getLast? = some '\n') (h : parse text = .ok ⟨program, .fatal e⟩) (rest : Text)
    (whole : Program) : parse (text ++ rest) ≠ .ok ⟨whole, .clean⟩ := by
  intro hwhole
  obtain hclosure | ⟨-, hbackslash⟩ := cause_of_parse_fatal h
  · rw [parse_append_of_isClosure h hclosure] at hwhole
    cases hwhole
  · rw [hline] at hbackslash
    cases hbackslash

/-- Nothing is held, or a text that is cut short. -/
def Waits (held : Text) : Prop := held = [] ∨ isCutShort held = true

theorem Waits.eq_nil_of_parse {held : Text} {program : Program} (h : Waits held)
    (hparse : parse held = .ok ⟨program, .clean⟩) : held = [] := by
  refine h.resolve_right fun hcut => ?_
  obtain ⟨_, _, hcut⟩ := isCutShort_iff.1 hcut
  rw [hparse] at hcut
  cases hcut

theorem Waits.offer {held : Text} (line : Text) : Waits (offer held line).held := by
  obtain ⟨hoffer, -⟩ | ⟨hoffer, hcut⟩ | ⟨hoffer, -⟩ := offer_cases held line
  · exact .inl (by rw [hoffer]; rfl)
  · exact .inr (by rw [hoffer]; exact hcut)
  · exact .inl (by rw [hoffer]; rfl)

theorem Waits.intake {held : Text} (h : Waits held) (lines : List Text) :
    Waits (intake held lines).held := by
  induction lines generalizing held with
  | nil => exact h
  | cons line lines ih => exact ih (.offer line)

omit [CallStack] in
theorem extend_of_getLast? {held line : Text} (h : line.getLast? = some '\n') :
    extend held line = held ++ line := by
  rw [extend, terminated, if_pos h]

/-- What is held may be completed to a text that is read to its end exactly if there is no chunk
    with a fatal error in it, and in the end nothing is held. -/
theorem parse_flatten_iff {held : Text} {lines : List Text} (hheld : Waits held)
    (hlines : ∀ line ∈ lines, line.getLast? = some '\n')
    (hlimit : Text.WithinLimit (held ++ lines.flatten)) :
    (∃ program, parse (held ++ lines.flatten) = .ok ⟨program, .clean⟩)
      ↔ (∀ chunk ∈ (intake held lines).chunks, ∀ program e,
          parse chunk ≠ .ok ⟨program, .fatal e⟩)
        ∧ (intake held lines).held = [] := by
  induction lines generalizing held with
  | nil =>
    rw [List.flatten_nil, List.append_nil]
    refine ⟨?_, ?_⟩
    · rintro ⟨program, hparse⟩
      exact ⟨List.forall_mem_nil _, hheld.eq_nil_of_parse hparse⟩
    · rintro ⟨-, hnil⟩
      obtain rfl : held = [] := hnil
      have hempty : Program.nesting [] < nestingLimit := nestingLimit_pos
      obtain ⟨program, hparse, -⟩ := parse_of_spells (.program (.empty .nil)) hempty
      exact ⟨program, hparse⟩
  | cons line lines ih =>
    obtain ⟨hline, hrest⟩ := List.forall_mem_cons.1 hlines
    have hextend : extend held line = held ++ line := extend_of_getLast? hline
    have hsplit : held ++ (line :: lines).flatten = extend held line ++ lines.flatten := by
      rw [hextend, List.flatten_cons, List.append_assoc]
    rw [hsplit] at hlimit ⊢
    obtain ⟨hoffer, hblank⟩ | ⟨hoffer, hcut⟩ | ⟨hoffer, hcut⟩ := offer_cases held line
    · -- Blank lines make no difference.
      have hsettled := Text.Settled.of_isAllBlank hblank
      rw [hsettled.parse_append_iff hlimit]
      simp only [intake, hoffer, Offer.held, Offer.chunk?, Option.toList_none, List.nil_append]
      exact ih (.inl rfl) hrest (hsettled.withinLimit hlimit)
    · -- What is cut short is held in front of the next line: the text of all is the same.
      simp only [intake, hoffer, Offer.held, Offer.chunk?, Option.toList_none, List.nil_append]
      exact ih (.inr hcut) hrest hlimit
    · -- A chunk is read for itself, and so is what is behind it, unless its error is fatal.
      simp only [intake, hoffer, Offer.held, Offer.chunk?, Option.toList_some,
        List.singleton_append, List.forall_mem_cons]
      have hlast : (extend held line).getLast? = some '\n' := getLast?_extend held line
      obtain ⟨⟨program, ending⟩, hparse⟩ := exists_parse_of_withinLimit hlimit.of_append
      cases ending with
      | clean =>
        have hsettled := Text.Settled.of_parse hlast hparse
        rw [hsettled.parse_append_iff hlimit]
        have hclean : ∀ program e, parse (extend held line) ≠ .ok ⟨program, .fatal e⟩ := by
          intro _ _ hfatal
          rw [hparse] at hfatal
          cases hfatal
        rw [and_iff_right hclean]
        exact ih (.inl rfl) hrest (hsettled.withinLimit hlimit)
      | needsMore e =>
        rw [isCutShort_iff.2 ⟨program, e, hparse⟩] at hcut
        cases hcut
      | fatal e =>
        refine iff_of_false ?_ fun h => h.1.1 program e hparse
        rintro ⟨whole, hwhole⟩
        exact parse_append_ne_of_fatal hlast hparse _ whole hwhole

end LineBuffer

/-- Lines are typed at a console that waits for a new text, and none of them leaves it. At every
    prompt it holds nothing, or a text that is cut short; its transcript is that of the lines and of
    the farewell, where the limit of the depth can be written, as it can at every console that is
    opened from the command line. The text of all lines can be read to its end exactly if none of
    the chunks was rejected for an error in it, and at the last prompt nothing is held. -/
theorem Console.accepts_iff {console : Console host} (h : console.session.Reached)
    (hheld : console.held = []) {lines : List Text}
    (hlines : ∀ line ∈ lines, line.getLast? = some '\n') (hstays : console.Stays lines)
    (hlimit : Text.WithinLimit lines.flatten) :
    (∀ before after, lines = before ++ after →
      (Text.Writable console.session.maxDepth →
        ∃ writes, console.feedAll before = .ok (writes, console.behind before)
          ∧ console.transcript before
            = .ok (writes ++ ((console.behind before).prompt ++ farewell)))
      ∧ ((console.behind before).held = []
        ∨ ∃ program e, parse (console.behind before).held = .ok ⟨program, .needsMore e⟩))
    ∧ ((∃ program, parse lines.flatten = .ok ⟨program, .clean⟩)
      ↔ (∀ report, .ok report ∈ console.session.reports (LineBuffer.intake [] lines).chunks →
          ¬ report.Rejects)
        ∧ (console.behind lines).held = []) := by
  constructor
  · rintro before after rfl
    have hbefore : console.Stays before := by
      intro earlier line later heq
      exact hstays earlier line (later ++ after) (by rw [heq]; simp)
    have hwaits : LineBuffer.Waits (console.behind before).held :=
      LineBuffer.Waits.intake (.inl hheld) before
    refine ⟨fun hw => ?_, hwaits.imp_right LineBuffer.isCutShort_iff.1⟩
    obtain ⟨writes, hfeed, htranscript⟩ := exists_feedAll h hw before
    exact ⟨writes, hfeed, htranscript hbefore⟩
  · have hbehind : (console.behind lines).held = (LineBuffer.intake [] lines).held := by
      rw [← hheld]
      rfl
    rw [hbehind, Session.reports_iff]
    exact LineBuffer.parse_flatten_iff (.inl rfl) hlines hlimit

end

open StandardStack

/-- Two commands on five lines, the second with a string that goes over a line break. -/
theorem Console.accepts_iff_of_filler :
    let lines : List Text := [['a', '|', '(', '\n'], [' ', '\n'], ['b', ' ', '(', 'c', '\n'],
      ['{', '\n'], ['\\', '}', '}', ')', '\n']]
    ∃ session : Session Host.alone, session.Reached
      ∧ (∃ program, parse lines.flatten = .ok ⟨program, .clean⟩)
      ∧ (∀ report, .ok report ∈ session.reports (LineBuffer.intake [] lines).chunks →
          ¬ report.Rejects)
      ∧ ((⟨session, [], false⟩ : Console Host.alone).behind lines).held = [] := by
  intro lines
  have hok : (Session.start Host.alone () [] (some preludeSource) 10).toOption.map Session.maxDepth
      = some 10 := by
    decide +kernel
  obtain ⟨session, hs, -⟩ := except_eq_ok_of_map hok
  let console : Console Host.alone := ⟨session, [], false⟩
  have hreached : console.session.Reached := .start hs
  have hstays : console.Stays lines := .of_forall (by decide +kernel)
  have hparse : ∃ program, parse lines.flatten = .ok ⟨program, .clean⟩ :=
    parse_of_ending (by decide +kernel)
  obtain ⟨-, hiff⟩ := accepts_iff hreached rfl (by decide +kernel) hstays (.of_length (by decide))
  exact ⟨session, .start hs, hparse, hiff.1 hparse⟩

end Phrasebook
