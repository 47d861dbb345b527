import Phrasebook.Evaluation.Evaluator
import Phrasebook.Proofs.Evaluation.Ensures
import Phrasebook.Proofs.Grammar.Soundness
import Phrasebook.Proofs.Scope.Soundness

/-! # Evaluations of programs that can be spelled

Where frames hold nothing but what fits, the evaluation of a program that a text can spell keeps
the frames so, calls every action with as many arguments as it takes, and ends in one of a few ways.
The trace, which records every call, carries what is said about calls.

* `Output.Plain`, `Output.PlainEnd`, `Call.Plain` — how commands, programs and calls may end.
* `Fault.TellsLimit` — the faults of programs that nest too deep.
* `State.Sound`, `Eval.Sound` — the invariant, and computations that keep it and know no other
  fault.
* `gather_sound`, `perform_sound`, `execute_sound`, `runCommands_sound` — one level of nesting.
* `evaluate_sound` — programs, by induction on the levels that are left.
-/

namespace Phrasebook

/-! ## Keys -/

/-- The key of a command has no gaps exactly if all parts are words. -/
theorem Key.arity_ofCommand_eq_zero_iff (command : Command) :
    (Key.ofCommand command).arity = 0 ↔ ∀ part ∈ command.parts, part.isWord = true := by
  have hplace : ∀ part : Part, (KeyPart.ofPart part).lower.isGap = !part.isWord := by
    intro part
    cases part <;> rfl
  rw [Key.arity, Key.ofCommand, Key.ofParts, List.map_map, List.countP_eq_zero]
  simp [hplace]

/-- A name has no gaps. -/
theorem arity_of_nameKey? {text : Text} {program : Program} {key : Key}
    (h : nameKey? text program = .ok key) : key.arity = 0 := by
  unfold nameKey? at h
  split at h
  · next command =>
    split at h
    · next hwords =>
      cases h
      exact (Key.arity_ofCommand_eq_zero_iff command).2 (List.all_eq_true.1 hwords)
    · cases h
  · cases h

theorem Key.arity_ofParts_gap (places : List KeyPart) :
    (Key.ofParts (.gap :: places)).arity = (Key.ofParts places).arity + 1 :=
  List.countP_cons_of_pos rfl

/-! ## How things end -/

/-- How a command may end: with a plain value, or with an error that is thrown. -/
def Output.Plain : Output → Prop
  | .returned value | .lastValue value => value.Plain
  | .thrown value => value.isError = true

/-- How a program may end: as a command may, except that it does not answer like one. -/
def Output.PlainEnd : Output → Prop
  | .returned _ => False
  | .lastValue value => value.Plain
  | .thrown value => value.isError = true

/-- A call has one plain argument for each gap of its key, or an error was thrown instead. -/
def Call.Plain : Call → Prop
  | .ready places args =>
    args.length = (Key.ofParts places).arity ∧ ∀ value ∈ args, value.Plain
  | .thrown value => value.isError = true

theorem Output.plain_error (message : Text) : (Output.error message).Plain := rfl

theorem Output.plain_ok : Output.ok.Plain := trivial

theorem Call.Plain.withWord {call : Call} (h : call.Plain) (text : Text) :
    (call.withWord text).Plain := by
  cases call with
  | ready places args => exact h
  | thrown value => exact h

theorem Call.Plain.withArg {call : Call} (h : call.Plain) {arg : Value} (ha : arg.Plain) :
    (call.withArg arg).Plain := by
  cases call with
  | ready places args =>
    refine ⟨?_, List.forall_mem_cons.2 ⟨ha, h.2⟩⟩
    rw [List.length_cons, h.1, Key.arity_ofParts_gap]
  | thrown value => exact h

/-- The fault tells that something nests too deep, for the stack or for the limit of the depth. -/
def Fault.TellsLimit (maxDepth : Int) (fault : Fault) : Prop :=
  fault = .tooDeep ∨ fault.HidesLimit maxDepth

/-! ## States -/

variable [CallStack]

/-- A call passes one plain argument for each gap of its key, and what the key means fits it. -/
def TraceEvent.Sound {Act : Type} : TraceEvent Act → Prop
  | .dispatched key args found =>
    (args.length = key.arity ∧ ∀ value ∈ args, value.Plain)
      ∧ ∀ entry, found = some entry → entry.Fits key
  | .opened _ | .closed | .began _ | .thrownInFiller _ | .thrownBy _ _ => True

/-- Frames hold what fits, and so far every call was sound. -/
structure State.Sound {Act Memory : Type} (state : State Act Memory) : Prop where
  store : state.store.Sound
  trace : ∀ event ∈ state.trace, event.Sound

theorem State.Sound.record {Act Memory : Type} {state : State Act Memory} (h : state.Sound)
    {event : TraceEvent Act} (he : event.Sound) : (state.record event).Sound := by
  refine ⟨h.store, ?_⟩
  intro other hother
  obtain hother | rfl := Array.mem_push.1 hother
  · exact h.trace other hother
  · exact he

theorem State.Sound.emit {Act Memory : Type} {state : State Act Memory} (h : state.Sound)
    (channel : Channel) (message : Text) : (state.emit channel message).Sound :=
  ⟨h.store, h.trace⟩

theorem State.Sound.cleared {Act Memory : Type} {state : State Act Memory} (h : state.Sound) :
    state.cleared.Sound :=
  ⟨h.store, nofun⟩

theorem State.Sound.enter {Act Memory : Type} {state : State Act Memory} (h : state.Sound) :
    state.enter.Sound := by
  have hdeeper : { state with depth := state.depth + 1 }.Sound := ⟨h.store, h.trace⟩
  exact hdeeper.record trivial

theorem State.Sound.leave {Act Memory : Type} {state : State Act Memory} (h : state.Sound) :
    state.leave.Sound := by
  have hback : { state with depth := state.depth - 1 }.Sound := ⟨h.store, h.trace⟩
  exact hback.record trivial

variable {host : Host} {α : Type} {maxDepth : Int}

/-- The computation keeps states sound. Its value has `Post`, and its fault, if it has one, is that
    something nests too deep. -/
def Eval.Sound (maxDepth : Int) (m : host.Eval α) (Post : α → Prop) : Prop :=
  Eval.Ensures State.Sound (Fault.TellsLimit maxDepth) m Post

/-- The programs that can be spelled are evaluated soundly. -/
def Nested.Sound (maxDepth : Int) (nested : Nested host) : Prop :=
  ∀ calls program scope, Program.Every Part.Spellable program →
    Eval.Sound maxDepth (nested.evaluate calls program scope) Output.PlainEnd

theorem child_sound (scope : FrameId) :
    Eval.Sound maxDepth (Eval.child scope : host.Eval FrameId) fun _ => True :=
  .child fun _ hs => ⟨hs.store.child scope, hs.trace⟩

theorem record_sound {event : TraceEvent host.Act} (h : event.Sound) :
    Eval.Sound maxDepth (Eval.record event) fun _ => True :=
  .record fun _ hs => hs.record h

/-! ## Built-in actions -/

/-- A program that is read during an evaluation can be spelled. -/
theorem readProgram_sound (calls : Nat) (text : Text) :
    Eval.Sound maxDepth (readProgram calls text : host.Eval (Except SyntaxError Program))
      fun read => ∀ program, read = .ok program → Program.Every Part.Spellable program := by
  unfold readProgram
  split
  · next program hp =>
    refine .of_pure ?_
    rintro _ ⟨⟩
    exact parseProgramWithin_every hp
  · exact .of_pure nofun
  · exact .of_throw (.inl rfl)

theorem bindName_sound (calls : Nat) (scope : FrameId) {value : Value} (hv : value.Plain)
    (name : Value) :
    Eval.Sound maxDepth (bindName calls scope value name : host.Eval Output) Output.Plain := by
  unfold bindName
  split
  · exact .of_pure (Output.plain_error _)
  · next text ht =>
    refine (readProgram_sound _ text).bind ?_
    intro read hread
    cases read with
    | error e => exact .of_pure (Output.plain_error _)
    | ok program =>
      dsimp only
      split
      · exact .of_pure (Output.plain_error _)
      · next key hkey =>
        have hfits : (Entry.stored value : Entry host.Act).Fits key := ⟨arity_of_nameKey? hkey, hv⟩
        have hregister : Eval.Sound maxDepth
            (Eval.register scope key (.stored value) : host.Eval Unit) fun _ => True := .register_stored fun _ hs => ⟨hs.store.bind scope hfits, hs.trace⟩
        exact hregister.bind fun _ _ => .of_pure Output.plain_ok

theorem runBranch_sound {nested : Nested host} (hn : nested.Sound maxDepth) (scope : FrameId)
    (condition branch : Value) :
    Eval.Sound maxDepth (runBranch nested scope condition branch) Output.Plain := by
  unfold runBranch
  split
  · exact .of_pure Output.plain_ok
  · split
    · exact .of_pure (Output.plain_error _)
    · next text ht =>
      refine (readProgram_sound _ text).bind ?_
      intro read hread
      cases read with
      | error e => exact .of_pure (Output.plain_error _)
      | ok program =>
        refine (child_sound scope).bind fun frame _ => ?_
        refine (hn _ program frame (hread program rfl)).bind ?_
        intro output hout
        cases output with
        | thrown value => exact .of_pure hout
        | returned value => exact .of_pure Output.plain_ok
        | lastValue value => exact .of_pure Output.plain_ok

/-- A built-in action that is given the arguments it takes never fails for their number. -/
theorem performBuiltin_sound {nested : Nested host} (hn : nested.Sound maxDepth) (scope : FrameId)
    {action : Builtin} {args : List Value} (hlength : args.length = action.arity)
    (hargs : ∀ value ∈ args, value.Plain) :
    Eval.Sound maxDepth (performBuiltin nested scope action args) Output.Plain := by
  cases action with
  | branch =>
    match args, hlength with
    | [condition, branch], _ => exact runBranch_sound hn scope condition branch
  | name =>
    match args, hlength with
    | [value, name], _ => exact bindName_sound _ scope (hargs value List.mem_cons_self) name
  | print =>
    obtain ⟨value, rfl⟩ := List.length_eq_one_iff.1 hlength
    have hemit : Eval.Sound maxDepth (Eval.emit .stdout value.display : host.Eval Unit)
        fun _ => True :=
      .emit fun _ hs => hs.emit _ _
    exact hemit.bind fun _ _ => .of_pure Output.plain_ok
  | throw =>
    obtain ⟨value, rfl⟩ := List.length_eq_one_iff.1 hlength
    refine .of_pure ?_
    show (thrownFor value).isError = true
    unfold thrownFor
    split
    · next herror => exact herror
    · rfl

/-! ## Commands -/

theorem gather_sound {nested : Nested host} (hn : nested.Sound maxDepth) (scope : FrameId) :
    ∀ parts : List Part, Part.AllEvery Part.Spellable parts →
    Eval.Sound maxDepth (gather nested scope parts) Call.Plain
  | [], _ => .of_pure ⟨rfl, nofun⟩
  | .word text _ :: rest, h =>
    (gather_sound hn scope rest h.2).bind fun _ hcall => .of_pure (hcall.withWord text)
  | .string _ _ :: rest, h =>
    (gather_sound hn scope rest h.2).bind fun _ hcall => .of_pure (hcall.withArg h.1.balanced)
  -- A filler is a program: it ends with a plain value, or throws and ends the call.
  | .filler content _ :: rest, h => by
    refine (child_sound scope).bind fun frame _ => ?_
    refine (hn _ content frame h.1.2).bind fun output hout => ?_
    cases output with
    | thrown value => exact .of_pure hout
    | returned value => exact hout.elim
    | lastValue value =>
      exact (gather_sound hn scope rest h.2).bind fun _ hcall => .of_pure (hcall.withArg hout)
  | .foreign _ :: _, h => h.1.native.elim

/-- What a key means is applied to as many arguments as the key has gaps. -/
theorem apply_sound {nested : Nested host} (hn : nested.Sound maxDepth) (scope : FrameId)
    {key : Key}
    {args : List Value} (hlength : args.length = key.arity) (hargs : ∀ value ∈ args, value.Plain)
    {found : Option (Entry host.Act)} (hfound : ∀ entry, found = some entry → entry.Fits key) :
    Eval.Sound maxDepth (apply nested scope key args found) Output.Plain := by
  cases found with
  | none => exact .of_pure (Output.plain_error _)
  | some entry =>
    have hfits := hfound entry rfl
    match entry with
    | .stored value => exact .of_pure hfits.2
    | .action (.builtin action) =>
      -- The key is that of the pattern, so its gaps are the arguments that the action takes.
      rw [Builtin.arity_of_ofPattern hfits] at hlength
      refine (performBuiltin_sound hn scope hlength hargs).bind fun output hout => ?_
      dsimp only
      split
      · exact (record_sound (by trivial)).bind fun _ _ => .of_pure hout
      · exact .of_pure hout
    | .action (.host _) => exact hfits.elim
    | .foreign _ _ => exact hfits.elim

theorem execute_sound {nested : Nested host} (hn : nested.Sound maxDepth) (scope : FrameId)
    {command : Command} (h : command.Every Part.Spellable) :
    Eval.Sound maxDepth (execute nested scope command) Output.Plain := by
  obtain ⟨parts, at?⟩ := command
  refine (gather_sound hn scope parts h).bind fun call hcall => ?_
  cases call with
  | thrown value => exact (record_sound (by trivial)).bind fun _ _ => .of_pure hcall
  | ready places args =>
    refine .get_bind fun state hs => ?_
    -- The key is looked up in a sound state, before the call is recorded.
    have hfound : ∀ entry, state.store.find? scope (Key.ofParts places) = some entry →
        entry.Fits (Key.ofParts places) := fun entry hf => hs.store.find? hf
    have hcalled : TraceEvent.Sound (.dispatched (Key.ofParts places) args
        (state.store.find? scope (Key.ofParts places))) := ⟨hcall, hfound⟩
    refine (record_sound hcalled).bind fun _ _ => ?_
    exact apply_sound hn scope hcall.1 hcall.2 hfound

/-! ## Programs -/

theorem runCommands_sound {nested : Nested host} (hn : nested.Sound maxDepth) (scope : FrameId) :
    ∀ (program : List Command) (last : Value), Program.Every Part.Spellable program → last.Plain →
    Eval.Sound maxDepth (runCommands nested scope program last) Output.PlainEnd
  | [], _, _, hl => .of_pure hl
  | command :: rest, _, h, _ => by
    refine .get_bind fun state hs => ?_
    refine (record_sound (by trivial)).bind fun _ _ => ?_
    refine (execute_sound hn scope h.1).bind fun output hout => ?_
    cases output with
    | thrown value => exact .of_pure hout
    | returned value => exact runCommands_sound hn scope rest value h.2 hout
    | lastValue value => exact runCommands_sound hn scope rest value h.2 hout

theorem evaluateWithin_sound (maxDepth : Int) : ∀ room calls : Nat,
    Nested.Sound maxDepth (⟨calls, evaluateWithin maxDepth room⟩ : Nested host)
  | 0, _, calls, _, _, _ => .onStack (.inl rfl) calls (.refuse (fun h => .inr ⟨rfl, h⟩) rfl)
  | room + 1, _, calls, program, scope, h => by
    have hrun := runCommands_sound (evaluateWithin_sound maxDepth room calls) scope program
      .nothing h trivial
    exact .onStack (.inl rfl) calls (.nest hrun (fun _ hs => hs.enter) fun _ hs => hs.leave)

/-- Programs that can be spelled are evaluated soundly under every limit of the depth. -/
theorem evaluate_sound (maxDepth : Int) (calls : Nat) :
    Nested.Sound maxDepth (.under maxDepth calls : Nested host) :=
  fun calls program scope h =>
    .get_bind fun _ _ => evaluateWithin_sound maxDepth _ calls calls program scope h

end Phrasebook
