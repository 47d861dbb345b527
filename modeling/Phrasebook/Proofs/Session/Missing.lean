import Phrasebook.Proofs.Evaluation.Calls
import Phrasebook.Proofs.Grammar.KeyNotation
import Phrasebook.Proofs.Session.Guarded

/-! # What is said of a name that is not found

A call that finds nothing throws an error with the key it looked up. Whoever reads the text behind
the colon as a pattern has that key again.

* `Key.Legible`, `TraceEvent.Legible`, `State.Legible` — keys that can be read back, and evaluations
  that have looked up no others.
* `Nested.Legible`, `evaluate_legible` — programs keep to such keys, by induction on the levels that
  are left.
* `Session.run_legible` — so do scripts.
* `key_notation_faithful` — keys, and the errors that name them.
-/

namespace Phrasebook

section

variable {host : Host} [CallStack]

/-! ## Legible keys -/

/-- The key can be read back from its text. -/
def Key.Legible (key : Key) : Prop := Key.ofPattern key.print = .ok key

def TraceEvent.Legible {Act : Type} : TraceEvent Act → Prop
  | .dispatched key _ _ => key.Legible
  | .opened _ | .closed | .began _ | .thrownInFiller _ | .thrownBy _ _ => True

/-- Every key looked up so far is legible. An action of an embedding program could record anything,
    so there must be none. -/
structure State.Legible {Act Memory : Type} (state : State Act Memory) : Prop where
  hostless : state.store.Hostless
  trace : ∀ event ∈ state.trace, event.Legible

theorem State.Legible.record {Act Memory : Type} {state : State Act Memory} (h : state.Legible)
    {event : TraceEvent Act} (he : event.Legible) : (state.record event).Legible := by
  refine ⟨h.hostless, fun other hother => ?_⟩
  obtain hother | rfl := Array.mem_push.1 hother
  · exact h.trace other hother
  · exact he

theorem State.Legible.enter {Act Memory : Type} {state : State Act Memory} (h : state.Legible) :
    state.enter.Legible := by
  have hdeeper : { state with depth := state.depth + 1 }.Legible := ⟨h.hostless, h.trace⟩
  exact hdeeper.record trivial

theorem State.Legible.leave {Act Memory : Type} {state : State Act Memory} (h : state.Legible) :
    state.leave.Legible := by
  have hback : { state with depth := state.depth - 1 }.Legible := ⟨h.hostless, h.trace⟩
  exact hback.record trivial

/-! ## Evaluations -/

/-- The computation looks up legible keys only. -/
def Eval.Legible {α : Type} (m : host.Eval α) : Prop :=
  Eval.Ensures State.Legible (fun _ => True) m fun _ => True

def Nested.Legible (nested : Nested host) : Prop :=
  ∀ calls program scope, Program.WellFormed program →
    Eval.Legible (nested.evaluate calls program scope)

theorem record_legible {event : TraceEvent host.Act} (h : event.Legible) :
    Eval.Legible (Eval.record event) :=
  .record fun _ hs => hs.record h

theorem child_legible (scope : FrameId) : Eval.Legible (Eval.child scope : host.Eval FrameId) :=
  .child fun _ hs => ⟨hs.hostless.child scope, hs.trace⟩

/-- A program that is read during an evaluation has no empty words and commands. -/
theorem readProgram_legible (calls : Nat) (text : Text) :
    Eval.Ensures State.Legible (fun _ => True)
      (readProgram calls text : host.Eval (Except SyntaxError Program))
      fun read => ∀ program, read = .ok program → Program.WellFormed program := by
  unfold readProgram
  split
  · next program hp =>
    refine .of_pure ?_
    rintro _ ⟨⟩
    exact parseProgramWithin_wellFormed hp
  · exact .of_pure nofun
  · exact .of_throw trivial

theorem bindName_legible (calls : Nat) (scope : FrameId) (value name : Value) :
    Eval.Legible (bindName calls scope value name : host.Eval Output) := by
  unfold bindName
  split
  · exact .of_pure trivial
  · next text ht =>
    refine (readProgram_legible calls text).bind fun read _ => ?_
    cases read with
    | error e => exact .of_pure trivial
    | ok program =>
      dsimp only
      split
      · exact .of_pure trivial
      · next key hkey =>
        have hregister : Eval.Legible (Eval.register scope key (.stored value) : host.Eval Unit) :=
          .register_stored fun _ hs => ⟨hs.hostless.bind scope key value, hs.trace⟩
        exact hregister.bind fun _ _ => .of_pure trivial

theorem runBranch_legible {nested : Nested host} (hn : nested.Legible) (scope : FrameId)
    (condition branch : Value) : Eval.Legible (runBranch nested scope condition branch) := by
  unfold runBranch
  split
  · exact .of_pure trivial
  · split
    · exact .of_pure trivial
    · next text ht =>
      refine (readProgram_legible nested.calls text).bind fun read hread => ?_
      cases read with
      | error e => exact .of_pure trivial
      | ok program =>
        refine (child_legible scope).bind fun frame _ => ?_
        exact (hn _ program frame (hread program rfl)).bind fun _ _ => .of_pure trivial

theorem performBuiltin_legible {nested : Nested host} (hn : nested.Legible) (scope : FrameId)
    (action : Builtin) (args : List Value) :
    Eval.Legible (performBuiltin nested scope action args) := by
  unfold performBuiltin
  split
  · exact runBranch_legible hn scope _ _
  · exact bindName_legible nested.calls scope _ _
  · next value =>
    have hemit : Eval.Legible (Eval.emit .stdout value.display : host.Eval Unit) :=
      .emit fun _ hs => ⟨hs.hostless, hs.trace⟩
    exact hemit.bind fun _ _ => .of_pure trivial
  · exact .of_pure trivial
  all_goals exact .of_throw trivial

theorem gather_legible {nested : Nested host} (hn : nested.Legible) (scope : FrameId) :
    ∀ parts : List Part, Part.AllWellFormed parts → Eval.Legible (gather nested scope parts)
  | [], _ => .of_pure trivial
  | .word _ _ :: rest, h =>
    (gather_legible hn scope rest h.2).bind fun _ _ => .of_pure trivial
  | .string _ _ :: rest, h =>
    (gather_legible hn scope rest h.2).bind fun _ _ => .of_pure trivial
  | .filler content _ :: rest, h => by
    refine (child_legible scope).bind fun frame _ => ?_
    refine (hn _ content frame h.1).bind fun output _ => ?_
    cases output with
    | thrown value => exact .of_pure trivial
    | returned value =>
      exact (gather_legible hn scope rest h.2).bind fun _ _ => .of_pure trivial
    | lastValue value =>
      exact (gather_legible hn scope rest h.2).bind fun _ _ => .of_pure trivial
  | .foreign _ :: _, _ => .of_throw trivial

theorem apply_legible {nested : Nested host} (hn : nested.Legible) (scope : FrameId) (key : Key)
    (args : List Value) {found : Option (Entry host.Act)}
    (hfound : ∀ action, found ≠ some (.action (.host action))) :
    Eval.Legible (apply nested scope key args found) := by
  match found with
  | none => exact .of_pure trivial
  | some (.stored value) => exact .of_pure trivial
  | some (.action (.builtin action)) =>
    refine Eval.Ensures.bind (performBuiltin_legible hn scope action args) fun output _ => ?_
    dsimp only
    split
    · exact (record_legible (by trivial)).bind fun _ _ => .of_pure trivial
    · exact .of_pure trivial
  | some (.action (.host action)) => exact absurd rfl (hfound action)
  | some (.foreign shown kind) => exact .of_throw trivial

/-- A command looks its own key up, whatever its fillers do, and that key is legible. -/
theorem execute_legible {nested : Nested host} (hn : nested.Legible) (scope : FrameId)
    {command : Command} (h : command.WellFormed) :
    Eval.Legible (execute nested scope command) := by
  have hparts : Part.AllWellFormed command.parts := by
    obtain ⟨parts, at?⟩ := command
    exact h.2
  have hgather := (gather_legible hn scope command.parts hparts).and
    (gather_of nested scope command.parts)
  refine hgather.bind fun call hcall => ?_
  cases call with
  | thrown value => exact (record_legible (by trivial)).bind fun _ _ => .of_pure trivial
  | ready places args =>
    obtain rfl : places = command.parts.map KeyPart.ofPart := hcall.2 places args rfl
    refine .get_bind fun state hs => ?_
    have hkey : (Key.ofCommand command).Legible := Key.ofPattern_print_ofCommand h
    have hcalled : Eval.Legible (Eval.record (.dispatched (.ofCommand command) args
        (state.store.find? scope (.ofCommand command)))) := record_legible hkey
    refine hcalled.bind fun _ _ => ?_
    exact apply_legible hn scope _ args (hs.hostless.find? scope _)

theorem runCommands_legible {nested : Nested host} (hn : nested.Legible) (scope : FrameId) :
    ∀ (program : List Command) (last : Value), Program.WellFormed program →
    Eval.Legible (runCommands nested scope program last)
  | [], _, _ => .of_pure trivial
  | command :: rest, _, h => by
    refine .get_bind fun state _ => ?_
    refine (record_legible (by trivial)).bind fun _ _ => ?_
    refine Eval.Ensures.bind (execute_legible hn scope h.1) fun output _ => ?_
    cases output with
    | thrown value => exact .of_pure trivial
    | returned value => exact runCommands_legible hn scope rest value h.2
    | lastValue value => exact runCommands_legible hn scope rest value h.2

theorem evaluateWithin_legible (maxDepth : Int) : ∀ room calls : Nat,
    Nested.Legible (⟨calls, evaluateWithin maxDepth room⟩ : Nested host)
  | 0, _, calls, _, _, _ => .onStack trivial calls (.refuse (fun _ => trivial) trivial)
  | room + 1, _, calls, program, scope, h => by
    have hrun := runCommands_legible (evaluateWithin_legible maxDepth room calls) scope program
      .nothing h
    exact .onStack trivial calls (.nest hrun (fun _ hs => hs.enter) fun _ hs => hs.leave)

theorem evaluate_legible (maxDepth : Int) (calls : Nat) :
    Nested.Legible (.under maxDepth calls : Nested host) :=
  fun calls program scope h =>
    .get_bind fun _ _ => evaluateWithin_legible maxDepth _ calls calls program scope h

/-! ## Scripts -/

namespace Session

/-- Every key that a script looks up is legible. -/
theorem run_legible {session : Session host} (hs : session.state.store.Hostless) (source : Text)
    (allowIncomplete : Bool) :
    ∀ event ∈ (session.run source allowIncomplete).2.state.trace, event.Legible := by
  have hcleared : session.state.cleared.Legible := ⟨hs, nofun⟩
  unfold run
  dsimp only
  split
  · exact hcleared.trace
  · split
    · exact hcleared.trace
    · exact hcleared.trace
  · exact hcleared.trace
  · next program hp =>
    have hlegible : Eval.Legible
        (evaluate session.maxDepth 0 program userFrame : host.Eval Output) :=
      evaluate_legible session.maxDepth 0 0 program userFrame (spells_of_parse hp).1.wellFormed
    have hrun := hlegible session.state.cleared hcleared
    unfold runProgram
    split
    · next output state hr =>
      rw [hr] at hrun
      split <;> exact hrun.2.trace
    · next state hr =>
      rw [hr] at hrun
      exact hrun.2.trace
    · next fault state hr =>
      rw [hr] at hrun
      exact hrun.2.trace

/-- The frames of every session that scripts lead to are guarded. -/
theorem Reached.guarded {session : Session host} (h : session.Reached) :
    ∃ builtins, session.state.store.Guarded builtins userFrame := by
  induction h with
  | start h => exact ⟨_, (start_guarded h).1⟩
  | run source allowIncomplete _ ih =>
    obtain ⟨builtins, hguarded⟩ := ih
    exact ⟨builtins, (run_guarded hguarded source allowIncomplete).1⟩

end Session

/-! ## What errors say -/

/-- The text of a key says what the key is. A key that has a place, and no empty word, is what its
    text describes as a pattern, and no other such key has the same text; keys of commands are of
    that kind. So a command whose key means nothing throws an error that tells what was looked up,
    and a script in which that happens, at whatever depth, ends with that error. -/
theorem key_notation_faithful :
    (∀ places : List KeyPart, places ≠ [] → .word [] ∉ places →
      Key.ofPattern (Key.ofParts places).print = .ok (.ofParts places)
      ∧ ∀ others : List KeyPart, others ≠ [] → .word [] ∉ others →
        ((Key.ofParts places).print = (Key.ofParts others).print
          ↔ Key.ofParts places = Key.ofParts others))
    ∧ (∀ command : Command, command.WellFormed →
      Key.ofPattern (Key.ofCommand command).print = .ok (.ofCommand command)
      ∧ ∀ (host : Host) (nested : Nested host) scope state places args after,
        gather nested scope command.parts state = .ok (.ready places args) after →
        after.store.find? scope (.ofCommand command) = none →
        ∃ text, Key.ofPattern text = .ok (.ofCommand command)
          ∧ execute nested scope command state
            = .ok (.error ("name not found: ".toList ++ text))
                (after.record (.dispatched (.ofCommand command) args none)))
    ∧ ∀ (host : Host) (session : Session host), session.Reached →
      ∀ source allowIncomplete key args,
        .dispatched key args none ∈ (session.run source allowIncomplete).2.state.trace →
        ∃ report text, (session.run source allowIncomplete).1 = .ok report
          ∧ report.output = some (.error ("name not found: ".toList ++ text))
          ∧ Key.ofPattern text = .ok key := by
  refine ⟨?_, ?_, ?_⟩
  · intro places hne hw
    exact ⟨Key.ofPattern_print hne hw, fun others hne' hw' =>
      Key.print_eq_print_iff hne hw hne' hw'⟩
  · intro command hcommand
    have hkey := Key.ofPattern_print_ofCommand hcommand
    refine ⟨hkey, fun host nested scope state places args after hgather hfound => ?_⟩
    refine ⟨_, hkey, ?_⟩
    rw [execute_of_gather hgather, hfound]
    rfl
  · intro host session hreached source allowIncomplete key args hcall
    obtain ⟨builtins, hguarded⟩ := hreached.guarded
    have hmissing := (Session.run_guarded hguarded source allowIncomplete).2 _ hcall
    obtain ⟨report, hreport, -, houtput⟩ := hmissing.2 rfl
    exact ⟨report, key.print, hreport, houtput,
      Session.run_legible hguarded.hostless source allowIncomplete _ hcall⟩

end

open StandardStack

/-- A word that looks like a gap beside a gap, a word of white space and a backslash, and sigmas at
    the end of a word and alone; and a command that finds nothing. -/
theorem key_notation_faithful_of_braces :
    let places : List KeyPart :=
      [.word ['{', '}'], .gap, .word [' ', '\\'], .word ['\u0391', '\u03A3'], .word ['\u03A3']]
    let command : Command := .mk [.word ['{', 'A', '}'] none, .string ['x'] none] none
    let state : Host.alone.State := { State.initial () with store := Store.empty.root.2 }
    (places ≠ [] ∧ .word [] ∉ places ∧ command.WellFormed)
      ∧ Key.ofPattern (Key.ofParts places).print = .ok (.ofParts places)
      ∧ ∃ text after, Key.ofPattern text = .ok (.ofCommand command)
        ∧ execute (.under 10 0) 0 command state
          = .ok (.error ("name not found: ".toList ++ text)) after := by
  intro places command state
  have hne : places ≠ [] := List.cons_ne_nil _ _
  have hw : .word [] ∉ places := by decide
  have hcommand : command.WellFormed := by
    simp [command, Command.WellFormed, Part.AllWellFormed, Part.WellFormed]
  obtain ⟨hkeys, hcommands, -⟩ := key_notation_faithful
  obtain ⟨-, hmissing⟩ := hcommands command hcommand
  obtain ⟨text, htext, hthrows⟩ := hmissing Host.alone (.under 10 0) 0 state
    [.word ['{', 'A', '}'], .gap] [.string ['x']] state rfl rfl
  exact ⟨⟨hne, hw, hcommand⟩, (hkeys places hne hw).1, text, _, htext, hthrows⟩

end Phrasebook
