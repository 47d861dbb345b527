import Phrasebook.Proofs.Evaluation.Arguments
import Phrasebook.Proofs.Evaluation.Sequence
import Phrasebook.Proofs.Evaluation.Soundness
import Phrasebook.Proofs.Evaluation.Trace
import Phrasebook.Proofs.Grammar.KeyNotation

/-! # Names

A value is given a name, and whoever writes the name gets the value.

* `Names`, `BadName` — texts that are names, and why a text is none.
* `bindName_of_names`, `bindName_of_badName` — binding a name, and failing to.
* `execute_of_stored`, `Program.Gives` — what a stored value answers.
* `gives_of_stored` — a command of words gives what its key is bound to.
* `name_then_read` — naming, then reading.
-/

namespace Phrasebook

variable {host : Host}

section

variable [CallStack]

/-! ## Texts that are names -/

/-- The text is the command, and nothing but words are in it. -/
structure Names (text : Text) (command : Command) : Prop where
  read : parseProgram text = .ok [command]
  words : ∀ part ∈ command.parts, part.isWord = true

/-- Why the text is not a name: it cannot be read, or it is not one command, or a part of the
    command is not a word. -/
inductive BadName (text : Text) : Prop where
  | unreadable {e : SyntaxError} : parseProgram text = .error (.malformed e) → BadName text
  | uncounted {program : Program} : parseProgram text = .ok program → program.length ≠ 1 →
      BadName text
  | argument {command : Command} {part : Part} : parseProgram text = .ok [command] →
      part ∈ command.parts → part.isWord = false → BadName text

theorem exists_names {text : Text} (hnesting : parseProgram text ≠ .error .tooDeep)
    (hgood : ¬ BadName text) : ∃ command, Names text command := by
  match hread : parseProgram text with
  | .error .tooDeep => exact absurd hread hnesting
  | .error (.malformed e) => exact absurd (.unreadable hread) hgood
  | .ok [command] =>
    refine ⟨command, hread, fun part hpart => ?_⟩
    cases hword : part.isWord with
    | true => rfl
    | false => exact absurd (.argument hread hpart hword) hgood
  | .ok [] => exact absurd (.uncounted hread nofun) hgood
  | .ok (_ :: _ :: _) => exact absurd (.uncounted hread (by simp)) hgood

theorem Names.not_badName {text : Text} {command : Command} (h : Names text command) :
    ¬ BadName text := by
  intro hbad
  cases hbad with
  | unreadable hread => cases h.read.symm.trans hread
  | uncounted hread hlength =>
    cases h.read.symm.trans hread
    exact hlength rfl
  | argument hread hpart hword =>
    cases h.read.symm.trans hread
    rw [h.words _ hpart] at hword
    cases hword

omit [CallStack] in
theorem nameKey?_of_length_ne {program : Program} (h : program.length ≠ 1) (text : Text) :
    ∃ message, nameKey? text program = .error message := by
  unfold nameKey?
  split
  · exact absurd rfl h
  · exact ⟨_, rfl⟩

/-! ## Binding -/

variable {calls : Nat} {scope : FrameId} {state : host.State} {value : Value} {text : Text}

/-- What does not nest too deep while some calls are open is read as it is while none are. -/
theorem parseProgram_of_calls (h : parseProgramWithin (readingLimit calls) text ≠ .error .tooDeep) :
    parseProgramWithin (readingLimit calls) text = parseProgram text :=
  (parseProgramWithin_of_le (readingLimit_le calls) h).symm

/-- What cannot be a name is answered by an error, and nothing has happened. -/
theorem bindName_of_badName
    (hnesting : parseProgramWithin (readingLimit calls) text ≠ .error .tooDeep)
    (h : BadName text) :
    ∃ message, bindName calls scope value (.string text) state = .ok (.error message) state := by
  have hsame := parseProgram_of_calls hnesting
  cases h with
  | unreadable hread =>
    exact ⟨_, by simp only [bindName, Value.string?, readProgram, hsame, hread]; rfl⟩
  | @uncounted program hread hlength =>
    obtain ⟨message, hkey⟩ := nameKey?_of_length_ne hlength text
    refine ⟨message, ?_⟩
    simp only [bindName, Value.string?, readProgram, hsame, hread, pure_bind, hkey]
    rfl
  | @argument command part hread hpart hword =>
    have hsome : command.parts.all Part.isWord = false :=
      List.all_eq_false.2 ⟨part, hpart, Bool.eq_false_iff.1 hword⟩
    refine ⟨badName text ++ "only words are allowed".toList, ?_⟩
    simp only [bindName, Value.string?, readProgram, hsame, hread, pure_bind, nameKey?, hsome]
    rfl

/-- A name is bound in the frame, under the key of the command that it is. -/
theorem bindName_of_names
    (hnesting : parseProgramWithin (readingLimit calls) text ≠ .error .tooDeep)
    {command : Command} (h : Names text command) :
    bindName calls scope value (.string text) state
      = .ok .ok { state with
          store := state.store.bind scope (.ofCommand command) (.stored value) } := by
  have hall : command.parts.all Part.isWord = true := List.all_eq_true.2 h.words
  simp only [bindName, Value.string?, readProgram, parseProgram_of_calls hnesting, h.read,
    pure_bind, nameKey?, hall, if_true]
  rfl

/-! ## Reading -/

theorem Part.allGive_of_words {nested : Nested host} :
    ∀ {parts : List Part}, (∀ part ∈ parts, part.isWord = true) →
    Part.AllGive nested scope parts state [] state
  | [], _ => .nil
  | .word _ _ :: _, h => .word (allGive_of_words (List.forall_mem_cons.1 h).2)
  | .string _ _ :: _, h | .filler _ _ :: _, h | .foreign _ :: _, h =>
    Bool.noConfusion (List.forall_mem_cons.1 h).1

/-- A command of words answers with what is stored under its key. -/
theorem execute_of_stored {nested : Nested host} {command : Command}
    (hw : ∀ part ∈ command.parts, part.isWord = true)
    (hfound : state.store.find? scope (.ofCommand command) = some (.stored value)) :
    execute nested scope command state
      = .ok (.returned value)
          (state.record (.dispatched (.ofCommand command) [] (some (.stored value)))) := by
  rw [execute_of_gather (Part.allGive_of_words hw).gather_eq, hfound]
  rfl

/-- In the frame, the program is evaluated to the value and leaves everything but the trace as it
    was, under every limit that the depth is below, and wherever the stack has room for a call. -/
def Program.Gives (program : Program) (value : Value) (frame : FrameId) (state : host.State) :
    Prop :=
  ∀ (maxDepth : Int) (calls : Nat), state.depth < maxDepth → calls < CallStack.size →
    ∃ after, evaluate maxDepth calls program frame state = .ok (.lastValue value) after
      ∧ after.untraced = state.untraced

/-- However a command with the key of a name is written, it gives what the name stands for. -/
theorem gives_of_stored {key : Key} (hkey : key.arity = 0)
    (hfound : state.store.find? scope key = some (.stored value)) {command : Command}
    (hcommand : Key.ofCommand command = key) :
    Program.Gives [command] value scope state := by
  intro maxDepth calls hlimit hcalls
  subst hcommand
  have hwords := (Key.arity_ofCommand_eq_zero_iff command).1 hkey
  have hbegun : (state.enter.record (.began state.enter.depth)).store.find? scope
      (.ofCommand command) = some (.stored value) := hfound
  rw [evaluate_eq_evaluateOnce, evaluateOnce_apply, if_pos hcalls, if_neg (Int.not_le.2 hlimit),
    runCommands_cons, execute_of_stored hwords hbegun]
  exact ⟨_, rfl, rfl⟩

omit [CallStack] in
/-- The frame that a key was bound in says what the key means, to all frames inside it that do not
    bind it themselves, as long as the frames remain. -/
theorem Store.nearest_of_bind {Act : Type} {store later : Store Act} {scope frame : FrameId}
    {key : Key} {entry : Entry Act} (hs : scope < store.size)
    (hlater : (store.bind scope key entry).KeepsAll later) {nearer further : List FrameId}
    (hchain : later.chain frame = nearer ++ scope :: further)
    (hnearer : ∀ other ∈ nearer, (later.bindings other).find? key = none) :
    later.Nearest frame scope key entry := by
  refine ⟨nearer, further, hchain, hnearer, ?_⟩
  have hkept : later.bindings scope = (store.bind scope key entry).bindings scope :=
    hlater.bindings_eq scope ((size_bind store scope key entry).symm ▸ hs) trivial
  rw [hkept, bindings_find?_bind hs, if_pos ⟨rfl, rfl⟩]

/-- Naming a value by a text that does not nest too deep either fails, because the text is not a
    name, and then only an error is thrown; or it binds the name in its frame, and then all other
    keys mean what they meant. From then on, as long as the frames remain, the name is read as the
    value, in its frame and in every frame inside it that does not bind it more closely: the text of
    the name itself, the text that its key is written as, and every command that differs from it in
    positions and in the case of its words. -/
theorem name_then_read (nested : Nested host) (value : Value) {text : Text} {scope : FrameId}
    {state : host.State} (hs : scope < state.store.size)
    (hnesting : parseProgramWithin (readingLimit nested.calls) text ≠ .error .tooDeep) :
    (BadName text → ∃ message,
      performBuiltin nested scope .name [value, .string text] state = .ok (.error message) state)
    ∧ (¬ BadName text → ∃ command,
        let key := Key.ofCommand command
        let store := state.store.bind scope key (.stored value)
        parseProgram text = .ok [command]
        ∧ performBuiltin nested scope .name [value, .string text] state
          = .ok .ok { state with store }
        ∧ (∀ frame other, other ≠ key → store.find? frame other = state.store.find? frame other)
        ∧ ∀ (later : host.State) (frame : FrameId) (nearer further : List FrameId),
          store.KeepsAll later.store → later.store.chain frame = nearer ++ scope :: further →
          (∀ other ∈ nearer, (later.store.bindings other).find? key = none) →
          Program.Gives [command] value frame later
          ∧ (∃ written, parse key.print = .ok ⟨written, .clean⟩
            ∧ Program.Gives written value frame later)
          ∧ ∀ other, Command.Alike command other → Program.Gives [other] value frame later) := by
  refine ⟨fun hbad => bindName_of_badName hnesting hbad, fun hgood => ?_⟩
  have hwhole : parseProgram text ≠ .error .tooDeep := parseProgram_of_calls hnesting ▸ hnesting
  obtain ⟨command, hnames⟩ := exists_names hwhole hgood
  refine ⟨command, hnames.read, bindName_of_names hnesting hnames,
    fun frame other hne => Store.find?_bind_of_ne hs hne _ frame, ?_⟩
  intro later frame nearer further hlater hchain hnearer
  have harity := (Key.arity_ofCommand_eq_zero_iff command).2 hnames.words
  have hfound := (Store.nearest_of_bind hs hlater hchain hnearer).find?_eq
  have hformed : command.WellFormed :=
    (spells_of_parse (parseProgram_eq_ok_iff.1 hnames.read)).1.wellFormed.1
  obtain ⟨written, hread, hkey⟩ := Key.ofPattern_eq_ok_iff.1 (Key.ofPattern_print_ofCommand hformed)
  -- The command itself, the one its key is written as, and those that are alike have one key.
  refine ⟨gives_of_stored harity hfound rfl, ?_, fun other halike => ?_⟩
  · exact ⟨[written], parseProgram_eq_ok_iff.1 hread, gives_of_stored harity hfound hkey⟩
  · exact gives_of_stored harity hfound halike.key_eq.symm

end

open StandardStack

/-- Two commands are not a name. Two words are, one of them with escapes, behind an empty line and
    in front of a comment; they are read three levels deep in a frame that was made afterwards. -/
theorem name_then_read_of_escapes :
    let state : Host.alone.State := { State.initial () with store := Store.empty.root.2 }
    let five := ['5']
    let bad := "a; b".toList
    let good := "\nMy c\\ ount\\;er | for now".toList
    (0 < state.store.size ∧ BadName bad ∧ ¬ BadName good
        ∧ ∀ text ∈ [bad, good], parseProgramWithin (readingLimit 15) text ≠ .error .tooDeep)
      ∧ (∃ message, performBuiltin (.under 10 15) 0 .name [.string five, .string bad] state
          = .ok (.error message) state)
      ∧ ∃ command, parseProgram good = .ok [command]
        ∧ ∀ later : Host.alone.State,
          later.store
            = ((state.store.bind 0 (.ofCommand command) (.stored (.string five))).child 0).2 →
          later.depth = 3 →
          ∃ after, evaluate 10 15 [command] 1 later = .ok (.lastValue (.string five)) after := by
  intro state five bad good
  have hlookBad : (parseProgramWithin (readingLimit 15) bad).toOption.map List.length
      = some 2 := by
    decide +kernel
  have hlookGood : (parseProgramWithin (readingLimit 15) good).toOption.map
      (·.map fun command => command.parts.all Part.isWord) = some [true] := by
    decide +kernel
  obtain ⟨program, hbad, hlength⟩ := except_eq_ok_of_map hlookBad
  obtain ⟨program', hgood, hwords⟩ := except_eq_ok_of_map hlookGood
  obtain ⟨command, rfl, hall⟩ := List.map_eq_singleton_iff.1 hwords
  have hread : ∀ text ∈ [bad, good],
      parseProgramWithin (readingLimit 15) text ≠ .error .tooDeep := by
    simp [hbad, hgood]
  have hbadName : BadName bad :=
    .uncounted ((parseProgram_of_calls (hread bad List.mem_cons_self)).symm.trans hbad)
      (by rw [hlength]; decide)
  have hnames : Names good command :=
    ⟨(parseProgram_of_calls (hread good (.tail _ (.head _)))).symm.trans hgood,
      List.all_eq_true.1 hall⟩
  have hs : 0 < state.store.size := by decide
  obtain ⟨hfails, -⟩ :=
    name_then_read (.under 10 15) (.string five) hs (hread bad List.mem_cons_self)
  obtain ⟨-, hbinds⟩ :=
    name_then_read (.under 10 15) (.string five) hs (hread good (.tail _ (.head _)))
  obtain ⟨other, hother, -, -, hgives⟩ := hbinds hnames.not_badName
  refine ⟨⟨hs, hbadName, hnames.not_badName, hread⟩, hfails hbadName, other, hother, ?_⟩
  intro later hlater hdepth
  have hgiven : Program.Gives [other] (.string five) 1 later := by
    refine (hgives later 1 [1] [] ?_ ?_ ?_).1
    · rw [hlater]
      exact .child _ _
    · rw [hlater]
      rfl
    · rw [hlater]
      simp only [List.mem_singleton, forall_eq]
      rfl
  obtain ⟨after, hvalue, -⟩ := hgiven 10 15 (by rw [hdepth]; decide) (by decide)
  exact ⟨after, hvalue⟩

end Phrasebook
