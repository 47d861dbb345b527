import Phrasebook.Proofs.Evaluation.Calls
import Phrasebook.Proofs.Session.Guarded

/-! # No script gets around the built-in actions

* `Key.Resolved` — what a call came to, in a script with its result.
* `Session.builtins_kept` — the frames and the calls of every session without an embedding program.
-/

namespace Phrasebook

section

variable {host : Host} [CallStack]

/-- What a key meant to a call, among the bindings of the built-in actions: what has gaps, the
    built-in action with that pattern, and what is made of words only, no action at all. If it meant
    nothing, the script ended with that error. -/
structure Key.Resolved {Act : Type} (builtins : Bindings Act) (result : Except Fault Report)
    (key : Key) (found : Option (Entry Act)) : Prop where
  words : key.arity = 0 → ∀ action, found ≠ some (.action action)
  gaps : key.arity ≠ 0 → found = builtins.find? key
  builtin : key.arity ≠ 0 → ∀ entry, found = some entry →
    ∃ action : Builtin, entry = .action (.builtin action) ∧ Key.ofPattern action.pattern = .ok key
  missing : found = none → ∃ report, result = .ok report ∧ report.status = .thrown
    ∧ report.output = some (.error ("name not found: ".toList ++ key.print))

theorem Key.Resolved.of_event {Act : Type} {builtins : Bindings Act}
    {result : Except Fault Report} {key : Key} {args : List Value} {found : Option (Entry Act)}
    (hs : (TraceEvent.dispatched key args found).Sound)
    (hg : (TraceEvent.dispatched key args found).Guarded builtins result) :
    key.Resolved builtins result found := by
  obtain ⟨-, hfits⟩ := hs
  obtain ⟨hgaps, hmissing⟩ := hg
  refine ⟨?_, hgaps, ?_, hmissing⟩
  · rintro hk action rfl
    match action, hfits _ rfl with
    | .builtin action, hpattern =>
      exact action.arity_ne_zero (Builtin.arity_of_ofPattern hpattern ▸ hk)
  · rintro hk entry rfl
    match entry, hfits _ rfl with
    | .stored value, hvalue => exact absurd hvalue.1 hk
    | .action (.builtin action), hpattern => exact ⟨action, rfl, hpattern⟩

namespace Session

/-- A session without an embedding program, whatever scripts it has run: the frame of the built-in
    actions binds what it bound at the start, each built-in action under its pattern among it, and
    every other frame binds stored values under names without gaps. So it stays in every script that
    follows: a call with gaps, however deep it is nested, means the built-in action with that
    pattern, or the script ends with the error that there is none, and a call without gaps never
    means an action. These are the calls of commands: each looks up the key of its command, which
    has no gap exactly if all parts are words, and does what it recorded to have found. Scripts end
    in reports, as long as the limit of the depth can be written. -/
theorem builtins_kept {memory : host.Memory} {prelude? : Option Text} {maxDepth : Int}
    {started : Session host} (hstart : start host memory [] prelude? maxDepth = .ok started)
    (scripts : List (Text × Bool)) :
    (∀ (action : Builtin) key, Key.ofPattern action.pattern = .ok key →
      (started.state.store.bindings builtinsFrame).find? key = some (.action (.builtin action)))
    ∧ (started.runAll scripts).state.store.bindings builtinsFrame
        = started.state.store.bindings builtinsFrame
    ∧ (∀ frame, frame ≠ builtinsFrame → ∀ key entry,
        (key, entry) ∈ (started.runAll scripts).state.store.bindings frame →
        key.arity = 0 ∧ ∃ value, entry = .stored value)
    ∧ (∀ source allowIncomplete,
        (Text.Writable maxDepth → ∃ report,
          ((started.runAll scripts).run source allowIncomplete).1 = .ok report)
        ∧ ∀ key args found, .dispatched key args found
            ∈ ((started.runAll scripts).run source allowIncomplete).2.state.trace →
          key.Resolved (started.state.store.bindings builtinsFrame)
            ((started.runAll scripts).run source allowIncomplete).1 found)
    ∧ ∀ command : Command,
      ((Key.ofCommand command).arity = 0 ↔ ∀ part ∈ command.parts, part.isWord = true)
      ∧ ∀ (nested : Nested host) scope state after places args,
        gather nested scope command.parts state = .ok (.ready places args) after →
        execute nested scope command state
          = apply nested scope (.ofCommand command) args
              (after.store.find? scope (.ofCommand command))
              (after.record (.dispatched (.ofCommand command) args
                (after.store.find? scope (.ofCommand command)))) := by
  obtain ⟨hguarded, hactions⟩ := start_guarded hstart
  have hsession := runAll_guarded hguarded scripts
  have hreached : (started.runAll scripts).Reached := (Reached.start hstart).runAll scripts
  refine ⟨hactions, hsession.kept Nat.zero_lt_one, hsession.rests.names, ?_, ?_⟩
  · intro source allowIncomplete
    have hlimit : (started.runAll scripts).maxDepth = maxDepth :=
      (started.runAll_maxDepth scripts).trans (start_maxDepth hstart)
    refine ⟨fun hw => ?_, fun key args found hmem => ?_⟩
    · exact exists_report hreached.sound (hlimit ▸ hw) source allowIncomplete
    · have hsound := (run_sound hreached.sound source allowIncomplete).trace _ hmem
      exact .of_event hsound ((run_guarded hsession source allowIncomplete).2 _ hmem)
  · intro command
    exact ⟨Key.arity_ofCommand_eq_zero_iff command, fun _ _ _ _ _ _ => execute_of_gather⟩

end Session

end

namespace Session

open StandardStack

/-- A script that gives a name of the prelude a new meaning, and tries to give a built-in action
    one. -/
theorem builtins_kept_of_shadowing :
    ∃ started : Session Host.alone,
      start .alone () [] (some preludeSource) 10 = .ok started
      ∧ (started.runAll [("name {mine} as {nothing}; name {a} as {print {}}".toList, false)]
          ).state.store.bindings builtinsFrame = started.state.store.bindings builtinsFrame
      ∧ ∃ report,
        ((started.runAll [("name {mine} as {nothing}; name {a} as {print {}}".toList, false)]).run
          "print (nothing); shout (nothing)".toList false).1 = .ok report := by
  have hok : (start Host.alone () [] (some preludeSource) 10).toOption.map Session.maxDepth
      = some 10 := by
    decide +kernel
  obtain ⟨started, hstart, -⟩ := except_eq_ok_of_map hok
  obtain ⟨-, hkept, -, hrun, -⟩ :=
    builtins_kept hstart [("name {mine} as {nothing}; name {a} as {print {}}".toList, false)]
  obtain ⟨hreports, -⟩ := hrun "print (nothing); shout (nothing)".toList false
  obtain ⟨report, hreport⟩ := hreports (by decide +kernel)
  exact ⟨started, hstart, hkept, report, hreport⟩

end Session

end Phrasebook
