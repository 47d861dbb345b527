import Phrasebook.Proofs.Evaluation.Sequence
import Phrasebook.Proofs.Evaluation.Soundness
import Phrasebook.Session.Basic

/-! # What sessions report

Sessions in which the embedding program binds nothing: whatever scripts they run, each run ends in a
report, and the status of the report says what output there is. Only a limit of the depth that has
too many digits can keep a run from its report.

* `Session.Reached` — the sessions that scripts lead to.
* `Session.Reached.sound` — the invariant of their states.
* `Report.Typed` — the outputs that go with each status.
* `Session.run_reports` — every run of every such session ends in a typed report.
* `Session.run_not_reported` — a limit that cannot be written.
-/

namespace Phrasebook

variable {host : Host}

section

variable [CallStack]

/-! ## Binding the built-in actions -/

/-- Built-in actions that are bound under their own patterns fit there. -/
theorem bindActions_sound {Act : Type} (frame : FrameId) (actions : List Builtin)
    {store : Store Act} (h : store.Sound) :
    (bindActions store frame
      (actions.map fun action => (action.pattern, .builtin action))).1.Sound := by
  induction actions generalizing store with
  | nil => exact h
  | cons action actions ih =>
    rw [List.map_cons, bindActions]
    split
    · exact h
    · next key hkey =>
      have hfits : (Entry.action (.builtin action) : Entry Act).Fits key := hkey
      have hrest := ih (h.bind frame hfits)
      split
      · next hb =>
        rw [hb] at hrest
        exact hrest
      · next hb =>
        rw [hb] at hrest
        exact hrest

namespace Session

/-- The sessions that begin without an action of the embedding program, with any prelude or none,
    and those that scripts lead to from there. -/
inductive Reached : Session host → Prop where
  | start {memory : host.Memory} {prelude? : Option Text} {maxDepth : Int}
      {session : Session host} :
      Session.start host memory [] prelude? maxDepth = .ok session → Reached session
  | run {session : Session host} (source : Text) (allowIncomplete : Bool) :
      Reached session → Reached (session.run source allowIncomplete).2

/-- A session evaluates programs under its own limit, while no calls are open. -/
theorem program_sound (session : Session host) {program : Program}
    (hp : Program.Every Part.Spellable program) (frame : FrameId) :
    Eval.Sound session.maxDepth (evaluate session.maxDepth 0 program frame : host.Eval Output)
      Output.PlainEnd :=
  evaluate_sound session.maxDepth 0 0 program frame hp

/-! ## Starting -/

theorem bindHere_sound {session bound : Session host} (actions : List Builtin)
    (hs : session.state.Sound)
    (h : session.bindHere (actions.map fun action => (action.pattern, .builtin action))
      = .ok bound) :
    bound.state.Sound := by
  have hstore := bindActions_sound builtinsFrame actions hs.store
  unfold bindHere at h
  split at h
  · next hb =>
    cases h
    rw [hb] at hstore
    exact ⟨hstore, hs.trace⟩
  · cases h

theorem load_sound {session loaded : Session host} {source : Text} (hs : session.state.Sound)
    (h : session.load source = .ok loaded) : loaded.state.Sound := by
  unfold load at h
  split at h
  · cases h
  · cases h
  · next program hp =>
    have hrun := session.program_sound (parseProgramWithin_every hp) builtinsFrame session.state hs
    split at h
    · cases h
    · next output state hr =>
      rw [hr] at hrun
      split at h
      · cases h
      · cases h
        exact ⟨hrun.2.store, hrun.2.trace⟩

/-- Where the built-in actions can be bound, a session without a prelude starts under every
    limit. -/
theorem start_none {store : Store host.Act} {keys : List Key}
    (h : bindActions emptyFrames builtinsFrame builtinActions = (store, .ok keys))
    {memory : host.Memory} {maxDepth : Int} :
    start host memory [] none maxDepth = .ok ⟨{ State.initial memory with store }, maxDepth⟩ := by
  have hbound : bindHere builtinActions
      (⟨{ State.initial memory with store := emptyFrames }, maxDepth⟩ : Session host)
        = .ok ⟨{ State.initial memory with store }, maxDepth⟩ := by
    unfold bindHere
    dsimp only
    rw [h]
  unfold start
  dsimp only
  rw [hbound]
  rfl

theorem start_sound {memory : host.Memory} {prelude? : Option Text} {maxDepth : Int}
    {session : Session host} (h : start host memory [] prelude? maxDepth = .ok session) :
    session.state.Sound := by
  unfold start at h
  obtain ⟨bound, hbound, h⟩ := except_bind_eq_ok h
  -- First the built-in actions, then the prelude, then the actions of the embedding program: none.
  have hempty : ({ State.initial memory with store := emptyFrames } : host.State).Sound :=
    ⟨(Store.Sound.empty.add []).child 0, nofun⟩
  have hb : bound.state.Sound := bindHere_sound Builtin.all hempty hbound
  cases prelude? with
  | none => exact bindHere_sound [] hb h
  | some source =>
    obtain ⟨loaded, hloaded, h⟩ := except_bind_eq_ok h
    exact bindHere_sound [] (load_sound hb hloaded) h

/-! ## The limit -/

theorem bindHere_maxDepth {session bound : Session host} {actions : List (Text × Action host.Act)}
    (h : session.bindHere actions = .ok bound) : bound.maxDepth = session.maxDepth := by
  unfold bindHere at h
  split at h
  · cases h
    rfl
  · cases h

theorem load_maxDepth {session loaded : Session host} {source : Text}
    (h : session.load source = .ok loaded) : loaded.maxDepth = session.maxDepth := by
  unfold load at h
  split at h
  · cases h
  · cases h
  · split at h
    · cases h
    · split at h
      · cases h
      · cases h
        rfl

theorem start_maxDepth {memory : host.Memory} {actions : List (Text × host.Act)}
    {prelude? : Option Text} {maxDepth : Int} {session : Session host}
    (h : start host memory actions prelude? maxDepth = .ok session) :
    session.maxDepth = maxDepth := by
  unfold start at h
  obtain ⟨bound, hbound, h⟩ := except_bind_eq_ok h
  cases prelude? with
  | none => exact (bindHere_maxDepth h).trans (bindHere_maxDepth hbound)
  | some source =>
    obtain ⟨loaded, hloaded, h⟩ := except_bind_eq_ok h
    exact (bindHere_maxDepth h).trans ((load_maxDepth hloaded).trans (bindHere_maxDepth hbound))

theorem runProgram_maxDepth (session : Session host) (program : Program) :
    (session.runProgram program).2.maxDepth = session.maxDepth := by
  unfold runProgram
  split
  · split <;> rfl
  · rfl
  · rfl

theorem run_maxDepth (session : Session host) (source : Text) (allowIncomplete : Bool) :
    (session.run source allowIncomplete).2.maxDepth = session.maxDepth := by
  unfold run
  dsimp only
  split
  · rfl
  · split <;> rfl
  · rfl
  · exact runProgram_maxDepth _ _

/-! ## Running -/

theorem runProgram_sound {session : Session host} (hs : session.state.Sound) {program : Program}
    (hp : Program.Every Part.Spellable program) :
    (session.runProgram program).2.state.Sound := by
  have hrun := session.program_sound hp userFrame session.state hs
  unfold runProgram
  split
  · next output state hr =>
    rw [hr] at hrun
    split
    · exact hrun.2.emit _ _
    · exact hrun.2
  · next state hr =>
    rw [hr] at hrun
    exact hrun.2.emit _ _
  · next state hr =>
    rw [hr] at hrun
    exact hrun.2

theorem run_sound {session : Session host} (hs : session.state.Sound) (source : Text)
    (allowIncomplete : Bool) : (session.run source allowIncomplete).2.state.Sound := by
  unfold run
  dsimp only
  split
  · exact hs.cleared.emit _ _
  · split
    · exact hs.cleared
    · exact hs.cleared.emit _ _
  · exact hs.cleared.emit _ _
  · next program hp => exact runProgram_sound hs.cleared (spells_of_parse hp).1.every

theorem Reached.sound {session : Session host} (h : session.Reached) : session.state.Sound := by
  induction h with
  | start h => exact start_sound h
  | run source allowIncomplete _ ih => exact run_sound ih source allowIncomplete

end Session

/-! ## Reports -/

def Report.Typed (report : Report) : Prop :=
  match report.status with
  | .success => report.output = some (.lastValue .nothing)
      ∨ ∃ text, report.output = some (.lastValue (.string text))
  | .thrown => ∃ message, report.output = some (.thrown (.error message))
  | .error | .incomplete => report.output = none

/-- A call that found something found a stored value, or a built-in action that takes as many
    arguments as the call passes. -/
def TraceEvent.Answered {Act : Type} : TraceEvent Act → Prop
  | .dispatched _ args (some entry) =>
    (∃ value, entry = .stored value)
      ∨ ∃ action : Builtin, entry = .action (.builtin action) ∧ args.length = action.arity
  | _ => True

theorem TraceEvent.Sound.answered {Act : Type} {event : TraceEvent Act} (h : event.Sound) :
    event.Answered := by
  match event with
  | .dispatched key args (some entry) =>
    obtain ⟨⟨hlength, -⟩, hfits⟩ := h
    replace hfits := hfits entry rfl
    match entry with
    | .stored value => exact .inl ⟨value, rfl⟩
    | .action (.builtin action) =>
      exact .inr ⟨action, rfl, hlength.trans (Builtin.arity_of_ofPattern hfits)⟩
    | .action (.host _) => exact hfits.elim
    | .foreign _ _ => exact hfits.elim
  | .dispatched _ _ none => trivial
  | .opened _ | .closed | .began _ | .thrownInFiller _ | .thrownBy _ _ => trivial

namespace Session

theorem runProgram_reports {session : Session host} (hs : session.state.Sound) {program : Program}
    (hp : Program.Every Part.Spellable program) :
    (∃ fault, (session.runProgram program).1 = .error fault ∧ fault.HidesLimit session.maxDepth)
      ∨ ∃ report, (session.runProgram program).1 = .ok report ∧ report.Typed
        ∧ ∀ fault after,
          evaluate session.maxDepth 0 program userFrame session.state = .error fault after →
          fault = .tooDeep ∧ report.status = .error := by
  have hrun := session.program_sound hp userFrame session.state hs
  unfold runProgram
  cases hr : evaluate session.maxDepth 0 program userFrame session.state with
  | ok output state =>
    rw [hr] at hrun
    refine .inr ?_
    cases output with
    -- A program never answers like a command.
    | returned value => exact hrun.1.elim
    | thrown value =>
      cases value with
      | error message => exact ⟨_, rfl, ⟨message, rfl⟩, nofun⟩
      | _ => cases hrun.1
    | lastValue value =>
      have hvalue : value.Plain := hrun.1
      obtain rfl | ⟨text, rfl⟩ := hvalue.nothing_or_string
      · exact ⟨_, rfl, .inl rfl, nofun⟩
      · exact ⟨_, rfl, .inr ⟨text, rfl⟩, nofun⟩
  | error fault state =>
    rw [hr] at hrun
    obtain rfl | ⟨rfl, hwritable⟩ := hrun.1
    · refine .inr ⟨_, rfl, rfl, ?_⟩
      rintro _ _ ⟨⟩
      exact ⟨rfl, rfl⟩
    · exact .inl ⟨_, rfl, rfl, hwritable⟩

/-- What comes of a run: the fault that stands for a limit which cannot be written, or a report
    whose output goes with its status. -/
theorem run_cases {session : Session host} (hs : session.state.Sound) (source : Text)
    (allowIncomplete : Bool) :
    (∃ fault, (session.run source allowIncomplete).1 = .error fault
        ∧ fault.HidesLimit session.maxDepth)
      ∨ ∃ report, (session.run source allowIncomplete).1 = .ok report ∧ report.Typed
        ∧ (∀ fault, parse source = .error fault → report.status = .error)
        ∧ ∀ program fault after, parse source = .ok ⟨program, .clean⟩ →
          evaluate session.maxDepth 0 program userFrame session.state.cleared
            = .error fault after →
          fault = .tooDeep ∧ report.status = .error := by
  have hcleared : (Session.mk session.state.cleared session.maxDepth).state.Sound := hs.cleared
  unfold run
  dsimp only
  cases hp : parse source with
  | error fault => exact .inr ⟨_, rfl, rfl, fun _ _ => rfl, nofun⟩
  | ok read =>
    obtain ⟨program, ending⟩ := read
    cases ending with
    | needsMore e => cases allowIncomplete <;> exact .inr ⟨_, rfl, rfl, nofun, nofun⟩
    | fatal e => exact .inr ⟨_, rfl, rfl, nofun, nofun⟩
    | clean =>
      obtain hfault | ⟨report, hreport, htyped, hdeep⟩ :=
        runProgram_reports hcleared (spells_of_parse hp).1.every
      · exact .inl hfault
      · refine .inr ⟨report, hreport, htyped, nofun, ?_⟩
        rintro _ fault after ⟨⟩ he
        exact hdeep fault after he

/-- Where the limit can be written, every script ends in a report of some kind. -/
theorem exists_report {session : Session host} (hs : session.state.Sound)
    (hw : Text.Writable session.maxDepth) (source : Text) (allowIncomplete : Bool) :
    ∃ report, (session.run source allowIncomplete).1 = .ok report := by
  obtain ⟨_, -, -, hlimit⟩ | ⟨report, hreport, -⟩ := run_cases hs source allowIncomplete
  · exact absurd hw hlimit
  · exact ⟨report, hreport⟩

/-- However many scripts a session has run, the next one ends in a report, unless its limit is one
    that cannot be written and is reached: then there is a fault instead of the error that would
    tell of the limit. The output of a report goes with its status. A text or an evaluation that
    cannot be followed for its depth is reported as an error, and no evaluation that is reported
    faults for another reason. Every call on the way found a stored value, a built-in action that
    takes the arguments it is given, or nothing. -/
theorem run_reports {session : Session host} (h : session.Reached) (source : Text)
    (allowIncomplete : Bool) :
    (Text.Writable session.maxDepth →
      ∃ report, (session.run source allowIncomplete).1 = .ok report)
    ∧ (∀ fault, (session.run source allowIncomplete).1 = .error fault →
      fault.HidesLimit session.maxDepth)
    ∧ (∀ report, (session.run source allowIncomplete).1 = .ok report → report.Typed
      ∧ (∀ fault, parse source = .error fault → report.status = .error)
      ∧ ∀ program fault after, parse source = .ok ⟨program, .clean⟩ →
        evaluate session.maxDepth 0 program userFrame session.state.cleared = .error fault after →
        fault = .tooDeep ∧ report.status = .error)
    ∧ ∀ event ∈ (session.run source allowIncomplete).2.state.trace, event.Answered := by
  refine ⟨fun hw => exists_report h.sound hw source allowIncomplete, fun fault hrun => ?_,
    fun report hrun => ?_,
    fun event he => ((run_sound h.sound source allowIncomplete).trace event he).answered⟩
  · obtain ⟨_, hfault, hlimit⟩ | ⟨report, hreport, -⟩ := run_cases h.sound source allowIncomplete
    · cases hfault.symm.trans hrun
      exact hlimit
    · cases hreport.symm.trans hrun
  · obtain ⟨_, hfault, -⟩ | ⟨_, hreport, htold⟩ := run_cases h.sound source allowIncomplete
    · cases hfault.symm.trans hrun
    · cases hreport.symm.trans hrun
      exact htold

end Session

end

open StandardStack

namespace Session

theorem run_reports_of_prelude :
    ∃ session : Session Host.alone, session.Reached
      ∧ start .alone () [] (some preludeSource) 10 = .ok session
      ∧ ∃ report, (session.run "name {b} as {a}; print (a); throw (a)".toList false).1 = .ok report
        ∧ report.Typed := by
  have hok : (start Host.alone () [] (some preludeSource) 10).toOption.map Session.maxDepth
      = some 10 := by
    decide +kernel
  obtain ⟨session, hs, hdepth⟩ := except_eq_ok_of_map hok
  have hr : session.Reached := .start hs
  have hw : Text.Writable session.maxDepth := by
    rw [hdepth]
    decide +kernel
  obtain ⟨hreports, -, htyped, -⟩ :=
    run_reports hr "name {b} as {a}; print (a); throw (a)".toList false
  obtain ⟨report, hreport⟩ := hreports hw
  exact ⟨session, hr, hs, report, hreport, (htyped report hreport).1⟩

/-- A session without a prelude starts under every limit. Under one that is below all depths and
    cannot be written, no script that can be read is reported. -/
theorem run_not_reported :
    let maxDepth : Int := -(Text.digitBound : Int)
    ∃ session : Session Host.alone, session.Reached
      ∧ start .alone () [] none maxDepth = .ok session
      ∧ (session.run ['x'] false).1 = .error (.unwritable maxDepth)
      ∧ ¬ ∃ report, (session.run ['x'] false).1 = .ok report := by
  intro maxDepth
  have hbound : (bindActions (emptyFrames : Store Empty) builtinsFrame
      builtinActions).2.toOption.map List.length = some 4 := by
    decide +kernel
  obtain ⟨keys, hkeys, -⟩ := except_eq_ok_of_map hbound
  let session : Session Host.alone :=
    ⟨{ State.initial () with store := (bindActions emptyFrames builtinsFrame builtinActions).1 },
      maxDepth⟩
  have hstart : start .alone () [] none maxDepth = .ok session := start_none (Prod.ext rfl hkeys)
  have hread : (parse ['x']).toOption.map Parse.ending = some .clean := by decide +kernel
  obtain ⟨⟨program, ending⟩, hparse, rfl⟩ := except_eq_ok_of_map hread
  have hfault : evaluate maxDepth 0 program userFrame session.state.cleared
      = .error (.unwritable maxDepth) session.state.cleared := by
    have hneg : maxDepth ≤ 0 := Int.neg_nonpos_of_nonneg (Int.natCast_nonneg _)
    rw [evaluate_of_reached hneg, if_pos CallStack.size_pos,
      if_neg Text.not_writable_neg_digitBound]
  have hrun : (session.run ['x'] false).1 = .error (.unwritable maxDepth) := by
    unfold run runProgram
    rw [hparse]
    dsimp only
    rw [hfault]
  refine ⟨session, .start hstart, hstart, hrun, ?_⟩
  rintro ⟨report, hreport⟩
  rw [hrun] at hreport
  cases hreport

end Session

end Phrasebook
