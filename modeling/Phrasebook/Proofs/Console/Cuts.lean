import Phrasebook.Proofs.Console.Acceptance
import Phrasebook.Proofs.Grammar.Continuation
import Phrasebook.Proofs.Session.Joining

/-! # Where lines are cut

Lines that make up a program are cut into chunks that are programs of their own. As a rule these are
the commands of the whole in order. A chunk that ends in an escaped line feed is cut too early,
unless the lines behind it begin with what ends a command.

* `LineBuffer.CutsCommands` — no chunk ends within a command.
* `LineBuffer.exists_programs` — the programs of the chunks and that of all lines.
* `Session.runPrograms` — a session that runs programs in order.
* `Console.cuts_commands_iff` — consoles.
-/

namespace Phrasebook

section

variable {host : Host} [CallStack]

namespace LineBuffer

/-- Wherever the line feed that a chunk ends in is escaped, the lines behind begin with the end of a
    command. -/
def CutsCommands (held : Text) : List Text → Prop
  | [] => True
  | line :: lines =>
    (∀ chunk, offer held line = .ready chunk → chunk.EscapesLineFeed → EndsCommand lines.flatten)
      ∧ CutsCommands (offer held line).held lines

/-- A line that does not complete a chunk cuts nothing. -/
theorem cutsCommands_cons_of_chunk?_eq_none {held line : Text} {lines : List Text}
    (h : (offer held line).chunk? = none) :
    CutsCommands held (line :: lines) ↔ CutsCommands (offer held line).held lines := by
  have hnever : ∀ chunk, offer held line ≠ .ready chunk := by
    intro chunk hready
    rw [hready] at h
    cases h
  exact and_iff_right fun chunk hready => absurd hready (hnever chunk)

theorem cutsCommands_cons_of_ready {held line chunk : Text} {lines : List Text}
    (h : offer held line = .ready chunk) :
    CutsCommands held (line :: lines)
      ↔ (chunk.EscapesLineFeed → EndsCommand lines.flatten) ∧ CutsCommands [] lines := by
  rw [CutsCommands, h]
  refine and_congr_left' ⟨fun hready => hready chunk rfl, ?_⟩
  intro hends other hother
  obtain rfl := Offer.ready.inj hother
  exact hends

/-- Blank lines in front of a program are no part of it. -/
theorem parse_of_blank {text rest : Text} {program : Program} (hblank : text.isAllBlank = true)
    (h : parse (text ++ rest) = .ok ⟨program, .clean⟩) :
    ∃ other, parse rest = .ok ⟨other, .clean⟩ ∧ Program.same program other = true := by
  have hsettled := Text.Settled.of_isAllBlank hblank
  obtain ⟨other, hother⟩ := (hsettled.parse_append_iff (withinLimit_of_parse h)).1 ⟨program, h⟩
  have hgap : Gap text := gap_of_forall fun c hc => .inl (List.all_eq_true.1 hblank c hc)
  have hspells := (spells_of_parse hother).1.gap hgap
  exact ⟨other, hother, (spells_of_parse h).1.unique hspells⟩

/-- A chunk at the beginning of a program, and what is behind it, are programs. -/
theorem parse_of_ready {text rest : Text} {program : Program} (hline : text.getLast? = some '\n')
    (hcut : isCutShort text = false) (h : parse (text ++ rest) = .ok ⟨program, .clean⟩) :
    (∃ first, parse text = .ok ⟨first, .clean⟩) ∧ ∃ second, parse rest = .ok ⟨second, .clean⟩ := by
  have hlimit := withinLimit_of_parse h
  obtain ⟨⟨first, ending⟩, hfirst⟩ := exists_parse_of_withinLimit hlimit.of_append
  cases ending with
  | clean =>
    have hsettled := Text.Settled.of_parse hline hfirst
    exact ⟨⟨first, hfirst⟩, (hsettled.parse_append_iff hlimit).1 ⟨program, h⟩⟩
  | needsMore e =>
    rw [isCutShort_iff.2 ⟨first, e, hfirst⟩] at hcut
    cases hcut
  | fatal e =>
    exact absurd h (parse_append_ne_of_fatal hline hfirst rest program)

/-- The chunks in lines that make up a program are programs. Put together they have as many commands
    or more, and they are that program exactly if no chunk ends within a command. -/
theorem exists_programs {held : Text} {lines : List Text} {program : Program}
    (hheld : Waits held) (hlines : ∀ line ∈ lines, line.getLast? = some '\n')
    (hparse : parse (held ++ lines.flatten) = .ok ⟨program, .clean⟩) :
    ∃ programs : List Program,
      (intake held lines).chunks.map parse = programs.map (fun program => .ok ⟨program, .clean⟩)
        ∧ program.length ≤ programs.flatten.length
        ∧ (Program.same programs.flatten program = true ↔ CutsCommands held lines) := by
  induction lines generalizing held program with
  | nil =>
    rw [List.flatten_nil, List.append_nil] at hparse
    obtain rfl := hheld.eq_nil_of_parse hparse
    have hempty : Program.same [] program = true :=
      Spells.unique (.program (.empty .nil)) (spells_of_parse hparse).1
    exact ⟨[], rfl, Nat.le_of_eq (Program.length_eq_of_same hempty).symm,
      iff_of_true hempty trivial⟩
  | cons line lines ih =>
    obtain ⟨hline, hrest⟩ := List.forall_mem_cons.1 hlines
    have hsplit : held ++ (line :: lines).flatten = extend held line ++ lines.flatten := by
      rw [extend_of_getLast? hline, List.flatten_cons, List.append_assoc]
    rw [hsplit] at hparse
    obtain ⟨hoffer, hblank⟩ | ⟨hoffer, hcut⟩ | ⟨hoffer, hcut⟩ := offer_cases held line
    · -- Blank lines in front are no part of the program.
      rw [cutsCommands_cons_of_chunk?_eq_none (by rw [hoffer]; rfl), intake, hoffer]
      obtain ⟨other, hother, hsame⟩ := parse_of_blank hblank hparse
      obtain ⟨programs, hchunks, hlength, hiff⟩ := ih (.inl rfl) hrest hother
      refine ⟨programs, hchunks, ?_, ?_⟩
      · rw [Program.length_eq_of_same hsame]
        exact hlength
      · rw [Offer.held, ← hiff, Program.same_iff, Program.same_iff,
          (Program.same_iff _ _).1 hsame]
    · rw [cutsCommands_cons_of_chunk?_eq_none (by rw [hoffer]; rfl), intake, hoffer]
      exact ih (.inr hcut) hrest hparse
    · rw [cutsCommands_cons_of_ready hoffer, intake, hoffer]
      have hlast : (extend held line).getLast? = some '\n' := getLast?_extend held line
      obtain ⟨⟨first, hfirst⟩, ⟨second, hsecond⟩⟩ := parse_of_ready hlast hcut hparse
      obtain ⟨programs, hchunks, hlength, hiff⟩ := ih (.inl rfl) hrest hsecond
      refine ⟨first :: programs, ?_, ?_⟩
      · show parse (extend held line) :: (intake [] lines).chunks.map parse = _
        rw [hfirst, hchunks]
        rfl
      rw [List.flatten_cons, List.length_append]
      obtain ⟨hsame, hends⟩ | ⟨hshort, hescapes, hends⟩ :=
        parse_append_cases hlast hfirst hsecond hparse
      · -- The chunk ends a command, and what is behind it is the rest of the program.
        refine ⟨?_, ?_⟩
        · rw [Program.length_eq_of_same hsame, List.length_append]
          omega
        · rw [and_iff_right hends, ← hiff, Program.same_iff, (Program.same_iff _ _).1 hsame,
            ← Program.same_iff, Program.same_append_iff]
      · -- The chunks have a command too many.
        refine ⟨by omega, iff_of_false (fun hsame => ?_) fun hcuts => ?_⟩
        · have hequal := Program.length_eq_of_same hsame
          rw [List.length_append] at hequal
          omega
        · exact hends (hcuts.1 hescapes)

end LineBuffer

/-! ## Consoles -/

namespace Session

/-- The session after programs have been run in order, each as a script of its own. -/
def runPrograms (session : Session host) (programs : List Program) : Session host :=
  programs.foldl
    (fun session program => ({ session with state := session.state.cleared }.runProgram program).2)
    session

/-- Running texts that can be read is running their programs. -/
theorem runAll_of_parse {session : Session host} {texts : List Text} {programs : List Program}
    (h : texts.map parse = programs.map (fun program => .ok ⟨program, .clean⟩)) :
    session.runAll (texts.map (·, true)) = session.runPrograms programs := by
  induction texts generalizing session programs with
  | nil =>
    obtain rfl := List.map_eq_nil_iff.1 h.symm
    rfl
  | cons text texts ih =>
    obtain ⟨program, programs, rfl, hprogram, hrest⟩ := List.map_eq_cons_iff.1 h.symm
    have hrun := run_of_parse hprogram.symm session true
    calc session.runAll ((text :: texts).map (·, true))
        = (session.run text true).2.runAll (texts.map (·, true)) := rfl
      _ = (session.run text true).2.runPrograms programs := ih hrest.symm
      _ = session.runPrograms (program :: programs) := by rw [hrun]; rfl

end Session

/-- Lines are typed at a console that waits for a new text, none of them leaves it, and their text
    is that of a program. Then the console holds nothing in the end, and each chunk that it ran was
    a program of its own, read to its end. The commands of these programs in order, up to positions,
    are those of the whole exactly if no chunk ends within a command: wherever the line feed that a
    chunk ends in is escaped, what was typed behind it begins with the end of a command. -/
theorem Console.cuts_commands_iff {console : Console host} (h : console.session.Reached)
    (hheld : console.held = []) {lines : List Text}
    (hlines : ∀ line ∈ lines, line.getLast? = some '\n') (hstays : console.Stays lines)
    {program : Program} (hparse : parse lines.flatten = .ok ⟨program, .clean⟩) :
    ∃ programs : List Program,
      (LineBuffer.intake [] lines).chunks.map parse
          = programs.map (fun program => .ok ⟨program, .clean⟩)
        ∧ (Text.Writable console.session.maxDepth →
          ∃ writes last, console.feedAll lines = .ok (writes, last)
            ∧ console.transcript lines = .ok (writes ++ (last.prompt ++ farewell))
            ∧ last.session = console.session.runPrograms programs ∧ last.held = [])
        ∧ (Program.same programs.flatten program = true ↔ LineBuffer.CutsCommands [] lines) := by
  obtain ⟨programs, hchunks, -, hiff⟩ := LineBuffer.exists_programs (.inl rfl) hlines hparse
  obtain ⟨-, hempty⟩ := (LineBuffer.parse_flatten_iff (.inl rfl) hlines
    (withinLimit_of_parse hparse)).1 ⟨program, hparse⟩
  refine ⟨programs, hchunks, fun hw => ?_, hiff⟩
  obtain ⟨writes, hfeed, htranscript⟩ := exists_feedAll h hw lines
  refine ⟨writes, console.behind lines, hfeed, htranscript hstays, ?_, ?_⟩
  · rw [behind, hheld]
    exact Session.runAll_of_parse hchunks
  · rw [behind, hheld]
    exact hempty

end

open StandardStack

/-- A word that ends in a line feed, and a semicolon on the next line. -/
theorem Console.cuts_commands_iff_of_semicolon :
    let lines : List Text := [['a', '\\', '\n'], [' ', ';', 'b', '\n']]
    ∃ session : Session Host.alone, session.Reached
      ∧ ∃ (program : Program) (programs : List Program), parse lines.flatten = .ok ⟨program, .clean⟩
        ∧ (LineBuffer.intake [] lines).chunks.map parse
          = programs.map (fun program => .ok ⟨program, .clean⟩)
        ∧ Program.same programs.flatten program = true := by
  intro lines
  have hok : (Session.start Host.alone () [] (some preludeSource) 10).toOption.map Session.maxDepth
      = some 10 := by
    decide +kernel
  obtain ⟨session, hs, -⟩ := except_eq_ok_of_map hok
  let console : Console Host.alone := ⟨session, [], false⟩
  have hreached : console.session.Reached := .start hs
  have hstays : console.Stays lines := .of_forall (by decide +kernel)
  obtain ⟨program, hparse⟩ : ∃ program, parse lines.flatten = .ok ⟨program, .clean⟩ :=
    parse_of_ending (by decide +kernel)
  obtain ⟨programs, hchunks, -, hiff⟩ :=
    cuts_commands_iff hreached rfl (by decide +kernel) hstays hparse
  have hends : EndsCommand [' ', ';', 'b', '\n'] :=
    .blank (Mark.of_eq_blank.2 (by decide)) (.mark (.inl (Mark.of_eq_terminator.2 (.inr rfl))))
  have hcuts : LineBuffer.CutsCommands [] lines :=
    ⟨fun _ _ _ => hends, fun _ _ _ => .nil, trivial⟩
  exact ⟨session, .start hs, program, programs, hparse, hchunks, hiff.2 hcuts⟩

/-- The same word goes on with the next line where that begins with a letter. The lines are one
    command, but each of them is run as a command of its own. -/
theorem Console.cuts_within_word :
    let lines : List Text := [['a', '\\', '\n'], ['b', '\n']]
    (∀ line ∈ lines, line.getLast? = some '\n' ∧ Text.strip isBlank line ≠ "exit".toList)
      ∧ ∃ program first second, parse lines.flatten = .ok ⟨program, .clean⟩
        ∧ (LineBuffer.intake [] lines).chunks.map parse
          = [.ok ⟨first, .clean⟩, .ok ⟨second, .clean⟩]
        ∧ program.length = 1 ∧ (first ++ second).length = 2
        ∧ Program.same (first ++ second) program = false := by
  intro lines
  have hread : ∀ text ∈ [lines.flatten, ['a', '\\', '\n'], ['b', '\n']],
      (parse text).toOption.map (fun read => (read.program.length, read.ending))
        = some (1, .clean) := by
    decide +kernel
  have hparse : ∀ text ∈ [lines.flatten, ['a', '\\', '\n'], ['b', '\n']],
      ∃ program, parse text = .ok ⟨program, .clean⟩ ∧ program.length = 1 := by
    intro text hmem
    obtain ⟨⟨program, ending⟩, hok, hlook⟩ := except_eq_ok_of_map (hread text hmem)
    obtain ⟨hlength, rfl⟩ := Prod.mk.inj hlook
    exact ⟨program, hok, hlength⟩
  obtain ⟨program, hprogram, hone⟩ := hparse lines.flatten (by simp)
  obtain ⟨first, hfirst, hfirstOne⟩ := hparse ['a', '\\', '\n'] (by simp)
  obtain ⟨second, hsecond, hsecondOne⟩ := hparse ['b', '\n'] (by simp)
  have hchunks : (LineBuffer.intake [] lines).chunks = lines := by decide +kernel
  have htwo : (first ++ second).length = 2 := by
    rw [List.length_append, hfirstOne, hsecondOne]
  refine ⟨by decide +kernel, program, first, second, hprogram, ?_, hone, htwo, ?_⟩
  · rw [hchunks, List.map_cons, List.map_cons, hfirst, hsecond]
    rfl
  · refine Bool.eq_false_iff.2 fun hsame => ?_
    have hlength := Program.length_eq_of_same hsame
    omega

end Phrasebook
