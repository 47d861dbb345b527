import Phrasebook.Proofs.Evaluation.Agreement
import Phrasebook.Proofs.Evaluation.Sequence
import Phrasebook.Proofs.Grammar.Juxtaposition
import Phrasebook.Proofs.Session.Reports

/-! # Scripts one behind the other

Running two scripts one after the other does what running them as one script does, the second on a
new line.

* `State.Continues` — states that differ in the effects of an earlier script, and in the trace.
* `Comparison.continues` — evaluations keep the difference.
* `Session.runProgram_continues` — the report then has the earlier effects before its own.
* `Session.run_append_lineFeed` — two scripts, joined and one after the other.
-/

namespace Phrasebook

variable {host : Host}

/-! ## States after an earlier script -/

/-- The first state holds the frames of the second, and effects of an earlier script before those
    of the second. -/
structure State.Continues (earlier : Array Effect) (state state' : host.State) : Prop where
  store_eq : state.store = state'.store
  effects_eq : state.effects = earlier ++ state'.effects
  hostless : state.store.Hostless

theorem State.Continues.emit {earlier : Array Effect} {state state' : host.State}
    (h : State.Continues earlier state state') (channel : Channel) (message : Text) :
    State.Continues earlier (state.emit channel message) (state'.emit channel message) := by
  refine ⟨h.store_eq, ?_, h.hostless⟩
  show Array.push _ _ = _ ++ Array.push _ _
  rw [h.effects_eq, Array.push_append]

theorem State.Continues.toList_effects {earlier : Array Effect} {state state' : host.State}
    (h : State.Continues earlier state state') :
    state.effects.toList = earlier.toList ++ state'.effects.toList := by
  rw [h.effects_eq, Array.toList_append]

/-- Evaluations after an earlier script and without it, in the same scope. -/
def Comparison.continues (host : Host) (earlier : Array Effect) : Comparison host where
  Place := FrameId
  left scope := scope
  right scope := scope
  Holds _ _ state state' := State.Continues earlier state state'
  find_eq _ h := by rw [h.store_eq]
  found_ne key action h := h.hostless.find? _ key action
  deepen _ h := ⟨h.store_eq, h.effects_eq, h.hostless⟩
  record _ h := ⟨h.store_eq, h.effects_eq, h.hostless⟩
  dispatch _ _ h := ⟨h.store_eq, h.effects_eq, h.hostless⟩
  throws _ h := h
  emit channel message h := h.emit channel message
  child {scope state state'} h := by
    refine ⟨state.store.size, rfl, congrArg Store.size h.store_eq, ?_, fun _ _ _ h => h⟩
    exact ⟨congrArg (fun store => (store.child scope).2) h.store_eq, h.effects_eq,
      h.hostless.child scope⟩
  bind {scope _ _ key} value _ h :=
    ⟨congrArg (·.bind scope key (.stored value)) h.store_eq, h.effects_eq,
      h.hostless.bind scope key value⟩

theorem Comparison.At.continues_self {state : host.State} (h : state.store.Hostless)
    (scope : FrameId) : (Comparison.continues host #[]).At none scope state.depth state state :=
  ⟨⟨rfl, Array.empty_append.symm, h⟩, rfl, rfl⟩

section

variable [CallStack]

namespace Session

/-! ## Runs of scripts that can be read -/

theorem run_of_parse {source : Text} {program : Program}
    (h : parse source = .ok ⟨program, .clean⟩) (session : Session host) (allowIncomplete : Bool) :
    session.run source allowIncomplete
      = { session with state := session.state.cleared }.runProgram program := by
  unfold run
  rw [h]

/-- A script that succeeds can be read to its end. -/
theorem parse_of_run_success {session : Session host} {source : Text} {allowIncomplete : Bool}
    {report : Report} (h : (session.run source allowIncomplete).1 = .ok report)
    (hs : report.status = .success) : ∃ program, parse source = .ok ⟨program, .clean⟩ := by
  unfold run at h
  split at h
  · cases h
    cases hs
  · cases allowIncomplete <;> cases h <;> cases hs
  · cases h
    cases hs
  · next program hp => exact ⟨program, hp⟩

theorem runProgram_of_ok {session : Session host} {program : Program} {output : Output}
    {after : host.State}
    (h : evaluate session.maxDepth 0 program userFrame session.state = .ok output after)
    (ho : output.thrown? = none) :
    session.runProgram program
      = (.ok ⟨.success, some output, none, none, after.effects.toList⟩,
          { session with state := after }) := by
  have hthrown : output.isThrown = false := by rw [Output.isThrown_eq, ho]; rfl
  unfold runProgram
  rw [h]
  simp [hthrown]

/-- A program that succeeds throws nothing. -/
theorem evaluate_of_runProgram_success {session : Session host} {program : Program}
    {report : Report} (h : (session.runProgram program).1 = .ok report)
    (hs : report.status = .success) :
    ∃ output after, evaluate session.maxDepth 0 program userFrame session.state = .ok output after
      ∧ output.thrown? = none := by
  unfold runProgram at h
  split at h
  · next output after he =>
    refine ⟨output, after, he, ?_⟩
    cases output with
    | thrown value =>
      cases h
      cases hs
    | returned value => rfl
    | lastValue value => rfl
  · cases h
    cases hs
  · cases h

/-! ## One program behind the other -/

omit [CallStack] in
theorem fail_continues {earlier : Array Effect} {session session' : Session host}
    (h : State.Continues earlier session.state session'.state) (status : Status) (message : Text)
    (output : Option Output) :
    (session.fail status message output).1
        = { (session'.fail status message output).1 with
            effects := earlier.toList ++ (session'.fail status message output).1.effects }
      ∧ (session.fail status message output).2.state.store
        = (session'.fail status message output).2.state.store := by
  have hemit := h.emit .stderr message
  refine ⟨?_, hemit.store_eq⟩
  show Report.mk _ _ _ _ (session.state.emit _ _).effects.toList = _
  rw [hemit.toList_effects]
  rfl

/-- Evaluations that agree but for earlier effects make reports that agree but for them, or end in
    the same fault. -/
theorem runProgram_continues {earlier : Array Effect} {session session' : Session host}
    {program program' : Program} {depth : Nat}
    (h : (Comparison.continues host earlier).Results userFrame depth Output.Agree
      (evaluate session.maxDepth 0 program userFrame session.state)
      (evaluate session'.maxDepth 0 program' userFrame session'.state)) :
    (session.runProgram program).1
        = (session'.runProgram program').1.map
            (fun report : Report => { report with effects := earlier.toList ++ report.effects })
      ∧ (session.runProgram program).2.state.store
        = (session'.runProgram program').2.state.store := by
  unfold runProgram
  generalize evaluate session.maxDepth 0 program userFrame session.state = result at h ⊢
  generalize evaluate session'.maxDepth 0 program' userFrame session'.state = result' at h ⊢
  match result, result', h with
  | .ok output after, .ok _ after', ⟨_, ⟨rfl, _⟩, hat⟩ =>
    have hholds : State.Continues earlier after after' := hat.holds
    cases output with
    | thrown value =>
      obtain ⟨hreport, hstore⟩ := @fail_continues _ _ { session with state := after }
        { session' with state := after' } hholds .thrown (Output.thrown value).print
        (some (.thrown value))
      exact ⟨congrArg Except.ok hreport, hstore⟩
    | returned value | lastValue value =>
      refine ⟨?_, hholds.store_eq⟩
      show Except.ok (Report.mk _ _ _ _ after.effects.toList) = _
      rw [hholds.toList_effects]
      rfl
  | .error fault after, .error _ after', ⟨rfl, hat⟩ =>
    cases fault with
    | tooDeep =>
      obtain ⟨hreport, hstore⟩ := @fail_continues _ _ { session with state := after }
        { session' with state := after' } hat.holds .error tooDeepMessage none
      exact ⟨congrArg Except.ok hreport, hstore⟩
    | _ => exact ⟨rfl, hat.holds.store_eq⟩

/-- Positions make no difference to the run of a program. -/
theorem runProgram_same {session : Session host} (hs : session.state.store.Hostless)
    {program program' : Program} (hsame : Program.same program program' = true) :
    (session.runProgram program).1 = (session.runProgram program').1
      ∧ (session.runProgram program).2.state.store
        = (session.runProgram program').2.state.store := by
  have hagree : (Comparison.continues host #[]).Results userFrame session.state.depth Output.Agree
      (evaluate session.maxDepth 0 program userFrame session.state)
      (evaluate session.maxDepth 0 program' userFrame session.state) :=
    evaluate_agrees _ session.maxDepth 0 0 (.of_same hsame) _ _ _ _ (.continues_self hs userFrame)
  obtain ⟨hreport, hstore⟩ := runProgram_continues hagree
  exact ⟨hreport.trans (congrFun Except.map_id _), hstore⟩

theorem runCommands_continues {earlier : Array Effect} {state state' : host.State} {depth : Nat}
    (hs : (Comparison.continues host earlier).At none userFrame depth state state')
    (maxDepth : Int) (levels : Nat) (program : Program) (last : Value) :
    (Comparison.continues host earlier).Results userFrame depth Output.Agree
      (runCommands ⟨0, evaluateWithin maxDepth levels⟩ userFrame program last state)
      (runCommands ⟨0, evaluateWithin maxDepth levels⟩ userFrame program last state') :=
  runCommands_agrees (evaluateWithin_agrees _ maxDepth levels 0) last (.refl program) _ _ hs

/-- Where the commands of a program that succeeds come to their end, one level deeper. -/
theorem exists_last {session : Session host} (hs : session.state.Sound) {program : Program}
    (hp : Program.Every Part.Spellable program) {output : Output} {after : host.State}
    (h : evaluate session.maxDepth 0 program userFrame session.state = .ok output after)
    (ho : output.thrown? = none) {levels : Nat}
    (hroom : room session.maxDepth session.state.depth = levels + 1) :
    ∃ value last, output = .lastValue value ∧ after = last.leave
      ∧ runCommands ⟨0, evaluateWithin session.maxDepth levels⟩ userFrame program .nothing
          session.state.enter = .ok (.lastValue value) last
      ∧ last.depth = session.state.depth + 1 ∧ last.store.Hostless := by
  have hend := session.program_sound hp userFrame session.state hs
  rw [h] at hend
  rw [evaluate_eq_leave hroom CallStack.size_pos] at h
  obtain ⟨last, hrun, hafter⟩ := Eval.leave_eq_ok h
  have henter : session.state.enter.store.Hostless := hs.store.hostless
  have hagree := runCommands_continues (.continues_self henter userFrame) session.maxDepth levels
    program .nothing
  rw [hrun] at hagree
  obtain ⟨_, -, hat⟩ := hagree
  cases output with
  | returned value => exact hend.1.elim
  | thrown value => cases ho
  | lastValue value =>
    exact ⟨value, last, rfl, hafter, hrun, hat.depth_left, hat.holds.hostless⟩

/-- A program that succeeds may be run before another one, or as its beginning. -/
theorem runProgram_append {session : Session host} (hs : session.state.Sound)
    {first second : Program} (hp : Program.Every Part.Spellable first) {output : Output}
    {after : host.State}
    (h : evaluate session.maxDepth 0 first userFrame session.state = .ok output after)
    (ho : output.thrown? = none) :
    (session.runProgram (first ++ second)).1
        = ({ session with state := after.cleared }.runProgram second).1.map
            (fun report : Report => { report with
              output := if second.isEmpty then some output else report.output
              effects := after.effects.toList ++ report.effects })
      ∧ (session.runProgram (first ++ second)).2.state.store
        = ({ session with state := after.cleared }.runProgram second).2.state.store := by
  obtain ⟨levels, hroom, hcalls⟩ := room_of_evaluate h ho
  obtain ⟨value, last, rfl, rfl, hrun, hlast, hhostless⟩ := exists_last hs hp h ho hroom
  have hback : last.leave.cleared.depth = session.state.depth := congrArg (· - 1) hlast
  have hjoined := evaluate_eq_leave hroom hcalls (first ++ second) userFrame
  rw [runCommands_append hrun] at hjoined
  have hsecond := evaluate_eq_leave (hback.symm ▸ hroom) hcalls second userFrame
  cases second with
  | nil =>
    rw [runProgram_of_ok hjoined rfl, runProgram_of_ok hsecond rfl]
    refine ⟨?_, rfl⟩
    show Except.ok (Report.mk _ _ _ _ last.effects.toList)
      = .ok ⟨_, _, _, _, last.effects.toList ++ []⟩
    rw [List.append_nil]
    rfl
  | cons command rest =>
    -- The value of the command before does not matter to a program that has commands.
    have hmiddle : (Comparison.continues host last.effects).At none userFrame
        (session.state.depth + 1) last last.leave.cleared.enter :=
      ⟨⟨rfl, Array.append_empty.symm, hhostless⟩, hlast, congrArg (· + 1) hback⟩
    have hagree := (runCommands_continues hmiddle session.maxDepth levels (command :: rest)
      .nothing).leave
    rw [← hsecond] at hagree
    have hresults : (Comparison.continues host last.effects).Results userFrame session.state.depth
        Output.Agree
        (evaluate session.maxDepth 0 (first ++ command :: rest) userFrame session.state)
        (evaluate session.maxDepth 0 (command :: rest) userFrame last.leave.cleared) := by
      rw [hjoined]
      exact hagree
    exact runProgram_continues hresults

/-! ## One script behind the other -/

/-- After a script that succeeds, a script that can be read does what it does as the end of a longer
    script that begins with the first: the frames are the same afterwards, the effects are those of
    the two in order, and the report is that of the second, but that the value of the first remains
    where the second has no command. There is a report of the second script, if the limit of the
    depth can be written; a fault takes its place in both runs or in none. -/
theorem run_append_lineFeed {session : Session host} (h : session.Reached) {first second : Text}
    (allowFirst allowSecond allowJoined : Bool) {report : Report} {program : Program}
    (hfirst : (session.run first allowFirst).1 = .ok report) (hs : report.status = .success)
    (hsecond : parse second = .ok ⟨program, .clean⟩) :
    (Text.Writable session.maxDepth →
        ∃ report', ((session.run first allowFirst).2.run second allowSecond).1 = .ok report')
      ∧ (session.run (first ++ '\n' :: second) allowJoined).1
        = ((session.run first allowFirst).2.run second allowSecond).1.map
            (fun report' : Report => { report' with
              output := if program.isEmpty then report.output else report'.output
              effects := report.effects ++ report'.effects })
      ∧ (session.run (first ++ '\n' :: second) allowJoined).2.state.store
        = ((session.run first allowFirst).2.run second allowSecond).2.state.store := by
  obtain ⟨firstProgram, hparse⟩ := parse_of_run_success hfirst hs
  have hsound : ({ session with state := session.state.cleared } : Session host).state.Sound :=
    h.sound.cleared
  have hspellable := (spells_of_parse hparse).1.every
  rw [run_of_parse hparse] at hfirst ⊢
  obtain ⟨output, after, heval, ho⟩ := evaluate_of_runProgram_success hfirst hs
  have hend := session.program_sound hspellable userFrame _ hsound
  rw [heval] at hend
  rw [runProgram_of_ok heval ho] at hfirst ⊢
  cases hfirst
  -- The second script, from where the first ended.
  let between : Session host := { session with state := after }
  have hbetween : between.state.Sound := hend.2
  refine ⟨fun hw => exists_report hbetween hw second allowSecond, ?_⟩
  -- The joined script, as the two programs one behind the other and as it was read.
  obtain ⟨read, hread, hsame⟩ := parse_append_lineFeed hparse hsecond
  obtain ⟨hreport, hstore⟩ := runProgram_append hsound hspellable heval ho
  obtain ⟨hjoined, hstore'⟩ := runProgram_same hsound.store.hostless hsame
  rw [run_of_parse hread, run_of_parse hsecond]
  exact ⟨hjoined.trans hreport, hstore'.trans hstore⟩

end Session

end

open StandardStack

namespace Session

/-- A first script that binds a name and ends in a comment. -/
theorem run_append_lineFeed_of_comment :
    ∃ session : Session Host.alone, session.Reached
      ∧ ∃ report, (session.run "name {1} as {x}; print {a} | done".toList false).1 = .ok report
        ∧ report.status = .success
        ∧ ∃ report', ((session.run "name {1} as {x}; print {a} | done".toList false).2.run
            "print (x); throw (x)".toList false).1 = .ok report'
          ∧ (session.run ("name {1} as {x}; print {a} | done".toList
              ++ '\n' :: "print (x); throw (x)".toList) false).1
            = .ok { report' with effects := report.effects ++ report'.effects } := by
  have hok : (start Host.alone () [] (some preludeSource) 10).toOption.map (fun session =>
      (session.maxDepth, (session.run
        "name {1} as {x}; print {a} | done".toList false).1.toOption.map Report.status))
      = some (10, some .success) := by
    decide +kernel
  have hread : (parse "print (x); throw (x)".toList).toOption.map (fun read =>
      (read.program.isEmpty, read.ending)) = some (false, .clean) := by
    decide +kernel
  obtain ⟨session, hs, hstarted⟩ := except_eq_ok_of_map hok
  obtain ⟨hdepth, hrun⟩ := Prod.mk.inj hstarted
  obtain ⟨report, hr, hsuccess⟩ := except_eq_ok_of_map hrun
  obtain ⟨⟨program, ending⟩, hp, hlook⟩ := except_eq_ok_of_map hread
  obtain ⟨hempty, rfl⟩ := Prod.mk.inj hlook
  obtain ⟨hreports, hjoined, -⟩ :=
    run_append_lineFeed (.start hs) false false false hr hsuccess hp
  obtain ⟨report', hreport'⟩ := hreports (hdepth ▸ by decide +kernel)
  refine ⟨session, .start hs, report, hr, hsuccess, report', hreport', ?_⟩
  rw [hjoined, hreport', hempty]
  rfl

end Session

end Phrasebook
