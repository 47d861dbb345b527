import Phrasebook.CommandLine
import Phrasebook.Proofs.Session.Guarded
import Phrasebook.Proofs.Text.Integer

/-! # The chunks that a console runs

Lines are cut into chunks by their text alone: what a chunk comes to when it is run has no influence
on where the next one begins.

* `LineBuffer.intake` — the chunks in a sequence of lines, and the text that waits for more.
* `Console.behind`, `Console.feedAll` — the console behind lines, as the chunks have it and as it is
  fed.
* `Console.exists_feedAll` — both are the same, and as long as no line leaves the console
  (`Console.Stays`) its transcript goes on from there.
* `Console.of_openConsole` — the consoles that the command line opens.
* `Session.reports`, `Report.Rejects` — what the runs of chunks say, and which of them refuse the
  text.
* `Session.reports_iff` — they refuse the texts with fatal errors.
-/

namespace Phrasebook

variable {host : Host} [CallStack]

/-! ## Lines -/

namespace LineBuffer

/-- The text that is held after lines, and the chunks that were ready on the way. -/
structure Intake where
  chunks : List Text
  held : Text

def intake (held : Text) : List Text → Intake
  | [] => ⟨[], held⟩
  | line :: lines =>
    let offered := offer held line
    let rest := intake offered.held lines
    ⟨offered.chunk?.toList ++ rest.chunks, rest.held⟩

theorem intake_append (held : Text) (lines more : List Text) :
    intake held (lines ++ more)
      = ⟨(intake held lines).chunks ++ (intake (intake held lines).held more).chunks,
        (intake (intake held lines).held more).held⟩ := by
  induction lines generalizing held with
  | nil => rfl
  | cons line lines ih => simp only [List.cons_append, intake, ih, List.append_assoc]

theorem isCutShort_iff {text : Text} :
    isCutShort text = true ↔ ∃ program e, parse text = .ok ⟨program, .needsMore e⟩ := by
  unfold isCutShort
  constructor
  · intro h
    split at h
    · next program e hparse => exact ⟨program, e, hparse⟩
    · cases h
  · rintro ⟨program, e, hparse⟩
    rw [hparse]

/-- What becomes of the text that is held when a line is added, in terms of the longer text. -/
theorem offer_cases (held line : Text) :
    (offer held line = .blank ∧ (extend held line).isAllBlank = true)
      ∨ (offer held line = .waiting (extend held line) ∧ isCutShort (extend held line) = true)
      ∨ (offer held line = .ready (extend held line) ∧ isCutShort (extend held line) = false) := by
  unfold offer
  dsimp only
  split
  · next hblank => exact .inl ⟨rfl, hblank⟩
  · split
    · next hcut => exact .inr (.inl ⟨rfl, hcut⟩)
    · next hcut => exact .inr (.inr ⟨rfl, Bool.eq_false_iff.2 hcut⟩)

end LineBuffer

/-! ## Consoles -/

namespace Console

/-- The console behind lines, as their text alone has it: it has run the chunks and holds the
    rest. -/
def behind (console : Console host) (lines : List Text) : Console host :=
  { console with
    session := console.session.runAll
      ((LineBuffer.intake console.held lines).chunks.map (·, true))
    held := (LineBuffer.intake console.held lines).held }

theorem behind_append (console : Console host) (lines more : List Text) :
    console.behind (lines ++ more) = (console.behind lines).behind more := by
  simp [behind, LineBuffer.intake_append, Session.runAll]

theorem behind_maxDepth (console : Console host) (lines : List Text) :
    (console.behind lines).session.maxDepth = console.session.maxDepth :=
  console.session.runAll_maxDepth _

/-- A console that scripts have led to takes every line, if the limit of the depth can be
    written. -/
theorem exists_feed {console : Console host} (h : console.session.Reached)
    (hw : Text.Writable console.session.maxDepth) (line : Text) :
    ∃ writes, console.feed line = (writes, .ok (console.behind [line])) := by
  unfold feed behind
  simp only [LineBuffer.intake, List.append_nil]
  cases hoffer : LineBuffer.offer console.held line with
  | blank => exact ⟨[], rfl⟩
  | waiting held => exact ⟨[], rfl⟩
  | ready chunk =>
    obtain ⟨report, hreport⟩ := Session.exists_report h.sound hw chunk true
    refine ⟨Writes.debug console.debug (console.session.run chunk true).2
      ++ Writes.result report, ?_⟩
    have hrun : console.session.run chunk true
        = (.ok report, (console.session.run chunk true).2) := by rw [← hreport]
    dsimp only
    rw [hrun]
    rfl

/-- The console after lines that were fed to it, with all that was written until it waits for
    another. -/
def feedAll (console : Console host) : List Text → Except Fault (Writes × Console host)
  | [] => .ok ([], console)
  | line :: lines =>
    match console.feed line with
    | (writes, .ok next) => do
      let (more, last) ← next.feedAll lines
      return (console.prompt ++ writes ++ more, last)
    | (_, .error e) => .error e

/-- No line leaves the console. -/
def Stays (console : Console host) (lines : List Text) : Prop :=
  ∀ before line after, lines = before ++ line :: after →
    (console.behind before).leaves line = false

theorem Stays.head {console : Console host} {line : Text} {lines : List Text}
    (h : console.Stays (line :: lines)) : console.leaves line = false :=
  h [] line lines rfl

theorem Stays.tail {console : Console host} {line : Text} {lines : List Text}
    (h : console.Stays (line :: lines)) : (console.behind [line]).Stays lines := by
  intro before next after heq
  rw [← behind_append]
  exact h ([line] ++ before) next after (by rw [heq]; rfl)

theorem Stays.of_forall {console : Console host} {lines : List Text}
    (h : ∀ line ∈ lines, Text.strip isBlank line ≠ "exit".toList) : console.Stays lines := by
  rintro before line after rfl
  have hline := h line (List.mem_append_right before List.mem_cons_self)
  rw [leaves, beq_eq_false_iff_ne.2 hline, Bool.and_false]

/-- Lines lead a console to where their text alone has it, if the limit of the depth can be written.
    As long as none of them leaves it, the transcript is what was written on the way, and the
    farewell at the prompt behind them. -/
theorem exists_feedAll {console : Console host} (h : console.session.Reached)
    (hw : Text.Writable console.session.maxDepth) (lines : List Text) :
    ∃ writes, console.feedAll lines = .ok (writes, console.behind lines)
      ∧ (console.Stays lines → console.transcript lines
        = .ok (writes ++ ((console.behind lines).prompt ++ farewell))) := by
  induction lines generalizing console with
  | nil => exact ⟨[], rfl, fun _ => rfl⟩
  | cons line lines ih =>
    obtain ⟨writes, hfeed⟩ := exists_feed h hw line
    have hnext : (console.behind [line]).session.Reached := h.runAll _
    obtain ⟨more, hmore, htranscript⟩ := ih hnext (console.behind_maxDepth [line] ▸ hw)
    have hbehind : console.behind (line :: lines) = (console.behind [line]).behind lines :=
      behind_append console [line] lines
    refine ⟨console.prompt ++ writes ++ more, ?_, fun hs => ?_⟩
    · rw [feedAll, hfeed, hbehind]
      dsimp only
      rw [hmore]
      rfl
    · rw [transcript, hs.head, hfeed, hbehind]
      dsimp only
      rw [htranscript hs.tail, List.append_assoc _ more]
      rfl

/-- A console that is opened from the command line, whatever the setting of the limit says, waits
    for a new text, and its limit can be written. -/
theorem of_openConsole {setting : Option Text} {debug : Bool} {writes : Writes}
    {console : Console Host.alone}
    (h : CommandLine.openConsole ⟨maxDepthOf none setting, debug⟩ = .ok (writes, console)) :
    console.session.Reached ∧ console.held = [] ∧ Text.Writable console.session.maxDepth := by
  unfold CommandLine.openConsole at h
  obtain ⟨session, hsession, h⟩ := except_bind_eq_ok h
  cases h
  unfold CommandLine.session at hsession
  cases hstart : Session.start Host.alone () [] (some preludeSource) (maxDepthOf none setting) with
  | error fault =>
    rw [hstart] at hsession
    cases hsession
  | ok started =>
    rw [hstart] at hsession
    cases hsession
    have hlimit : session.maxDepth = maxDepthOf none setting := Session.start_maxDepth hstart
    exact ⟨.start hstart, rfl, hlimit ▸ writable_maxDepthOf setting⟩

end Console

/-! ## Reports of chunks -/

/-- The run was refused for the text: the report points at the place of an error. -/
def Report.Rejects (report : Report) : Prop := report.status = .error ∧ report.position ≠ none

namespace Session

/-- What the runs of texts come to, one after the other. -/
def reports (session : Session host) : List Text → List (Except Fault Report)
  | [] => []
  | text :: texts => (session.run text true).1 :: (session.run text true).2.reports texts

theorem runProgram_not_rejects (session : Session host) (program : Program) {report : Report}
    (h : (session.runProgram program).1 = .ok report) : ¬ report.Rejects := by
  unfold runProgram at h
  rintro ⟨hstatus, hposition⟩
  split at h
  · split at h
    · cases h
      cases hstatus
    · cases h
      cases hstatus
  · cases h
    exact hposition rfl
  · cases h

/-- A session rejects the texts with a fatal error, whatever it has run before. -/
theorem rejects_iff (session : Session host) (text : Text) :
    (∃ report, (session.run text true).1 = .ok report ∧ report.Rejects)
      ↔ ∃ program e, parse text = .ok ⟨program, .fatal e⟩ := by
  unfold run
  dsimp only
  cases hparse : parse text with
  | error fault =>
    refine ⟨?_, nofun⟩
    rintro ⟨report, ⟨⟩, -, hposition⟩
    exact absurd rfl hposition
  | ok read =>
    obtain ⟨program, ending⟩ := read
    cases ending with
    | needsMore e =>
      refine ⟨?_, nofun⟩
      rintro ⟨report, ⟨⟩, hstatus, -⟩
      cases hstatus
    | fatal e =>
      refine ⟨fun _ => ⟨program, e, rfl⟩, fun _ => ?_⟩
      refine ⟨(failAt { session with state := session.state.cleared } text e).1, rfl, rfl, ?_⟩
      exact Option.some_ne_none _
    | clean =>
      refine ⟨?_, nofun⟩
      rintro ⟨report, hreport, hrejects⟩
      exact absurd hrejects (runProgram_not_rejects _ program hreport)

/-- None of the runs rejects its text exactly if no text has a fatal error. -/
theorem reports_iff (session : Session host) (texts : List Text) :
    (∀ report, .ok report ∈ session.reports texts → ¬ report.Rejects)
      ↔ ∀ text ∈ texts, ∀ program e, parse text ≠ .ok ⟨program, .fatal e⟩ := by
  induction texts generalizing session with
  | nil => exact iff_of_true (fun _ h => absurd h List.not_mem_nil) (List.forall_mem_nil _)
  | cons text texts ih =>
    have hfirst := session.rejects_iff text
    have hrest := ih (session.run text true).2
    constructor
    · intro h
      refine List.forall_mem_cons.2 ⟨fun program e hparse => ?_, hrest.1 fun report hmem => ?_⟩
      · obtain ⟨report, hreport, hrejects⟩ := hfirst.2 ⟨program, e, hparse⟩
        exact h report (List.mem_cons.2 (.inl hreport.symm)) hrejects
      · exact h report (List.mem_cons_of_mem _ hmem)
    · intro h report hmem hrejects
      obtain ⟨htext, htexts⟩ := List.forall_mem_cons.1 h
      obtain heq | hmem := List.mem_cons.1 hmem
      · obtain ⟨program, e, hparse⟩ := hfirst.1 ⟨report, heq.symm, hrejects⟩
        exact htext program e hparse
      · exact hrest.2 htexts report hmem hrejects

end Session

end Phrasebook
