import Phrasebook.Proofs.Reader.Loop

/-! # Progress of the descent

The loops with calls: commands and programs. Where one of them calls, what it calls takes a
character at least, and comes back with what the reader gives.

* `Descent.Leaves`, `Descent.Inside.Reads` — where the loop over commands ends, and programs inside
  fillers.
* `Descent.filler_reads`, `Descent.command_reads` — the calls.
* `Descent.commandPass_reads`, `Descent.programPass_reads` — the passes.
* `Descent.program_reads`, `Descent.nested_reads` — programs.
-/

namespace Phrasebook

open Reader

namespace Descent

/-! ## Commands -/

/-- What the loop over commands says when it is left, if the reader stops there. A closing
    parenthesis is left to the filler around; where there is none the loop fails. -/
inductive Leaves (inFiller : Bool) : Outcome Unit → Stop → Prop where
  | endOfText {stop : Cursor} : stop.rest = [] → Leaves inFiller (.returned () stop) .endOfText
  | closing {stop : Cursor} : inFiller = true → stop.peek = some ')' →
      Leaves inFiller (.returned () stop) (.closing stop)
  | unexpected {stop : Cursor} : inFiller = false →
      Leaves inFiller (.raised (fault .unexpectedFillerClosure stop.position) stop) (.closing stop)
  | failed {fault : ParseFault} {stop : Cursor} :
      Leaves inFiller (.raised fault stop) (.failed fault)

/-- Programs inside fillers are read as the level reads them, and the cursor goes forward. -/
def Inside.Reads (inside : Inside) (level : Level) : Prop :=
  ∀ ⦃cursor : Cursor⦄ ⦃commands : Program⦄ ⦃left : Outcome Unit⦄,
    inside cursor = some (commands, left) → cursor.Reaches left.cursor
      ∧ ∃ stop, level.read cursor = ⟨commands, stop⟩ ∧ Leaves true left stop

variable {inside : Inside} {level : Level} {fuel : Nat} {cursor : Cursor}

theorem filler_reads {outcome : Outcome Part} (hin : inside.Reads level)
    (hm : mark? cursor = some .fillerOpen) (h : filler inside cursor = some outcome) :
    (outcome.map some).Reads cursor (Reader.filler level cursor) := by
  have hnext := Cursor.consumes_next (rest_ne_nil_of_mark? hm)
  rw [filler] at h
  split at h
  · next content stop hr =>
    obtain ⟨hreaches, _, hread, hleaves⟩ := hin hr
    have hstop : cursor.Consumes stop := hnext.trans hreaches
    -- Inside a filler the loop returns at the end of the text or before a parenthesis.
    cases hleaves with
    | endOfText hend =>
      have hpeek : stop.peek ≠ some ')' := by simp [Cursor.peek, hend]
      rw [if_neg hpeek] at h
      cases h
      exact ⟨_, rfl, by rw [Reader.filler, hread]; rfl, hstop⟩
    | closing _ hpeek =>
      rw [if_pos hpeek] at h
      cases h
      exact ⟨_, rfl, by rw [Reader.filler, hread]; rfl, hstop.trans (Cursor.reaches_next stop)⟩
  · next content fault stop hr =>
    obtain ⟨hreaches, _, hread, hleaves⟩ := hin hr
    cases h
    cases hleaves with
    | unexpected hfiller => cases hfiller
    | failed => exact ⟨_, rfl, by rw [Reader.filler, hread]; rfl, hnext.trans hreaches⟩
  · cases h

theorem commandPass_of_inWord {mark : Mark} (hm : mark? cursor = some mark)
    (hw : mark.inWord = true) :
    commandPass inside fuel cursor = (word fuel cursor).map .afterCall := by
  rw [commandPass_eq, hm]
  rcases Mark.inWord_iff.1 hw with rfl | rfl <;> rfl

/-- Where a part opens, the loop over parts calls for it. -/
theorem commandPass_of_opensPart {mark : Mark} {first : Pass Part Cursor} (hin : inside.Reads level)
    (hm : mark? cursor = some mark) (ho : mark.opensPart = true)
    (h : commandPass inside fuel cursor = some first) :
    ∃ call step, first = .afterCall call ∧ part level cursor = some step
      ∧ call.Reads cursor step := by
  cases mark with
  | fillerOpen =>
    rw [commandPass_eq, hm] at h
    obtain ⟨outcome, hcall, rfl⟩ := Option.map_eq_some_iff.1 h
    exact ⟨_, _, rfl, by rw [part, hm], filler_reads hin hm hcall⟩
  | stringOpen =>
    rw [commandPass_eq, hm] at h
    obtain ⟨outcome, hcall, rfl⟩ := Option.map_eq_some_iff.1 h
    exact ⟨_, _, rfl, by rw [part, hm], string_reads hm hcall⟩
  | plain | escape =>
    rw [commandPass_of_inWord hm rfl] at h
    obtain ⟨call, hcall, rfl⟩ := Option.map_eq_some_iff.1 h
    exact ⟨_, _, rfl, by rw [part, hm], word_reads hm rfl hcall⟩
  | terminator | blank | comment | fillerClose | stringClose => cases ho

theorem Outcome.Reads.afterCall {step : Step Part} {call : Outcome (Option Part)}
    (h : call.Reads cursor step) (hp : part level cursor = some step) :
    (Pass.afterCall call).Reads id (moreParts level) cursor := by
  obtain ⟨outcome, rfl, rfl, hconsumes⟩ := h
  cases outcome with
  | returned piece after =>
    exact ⟨hconsumes, (moreParts_of_part_eq_some hp).trans (Step.cons_eq_map piece _)⟩
  | raised fault after => exact ⟨hconsumes.reaches, moreParts_of_part_eq_error hp⟩

theorem commandPass_reads {here : Cursor} {first : Pass Part Cursor} (hin : inside.Reads level)
    (h : commandPass inside fuel here = some first) : first.Reads id (moreParts level) here := by
  cases hm : mark? here with
  | none =>
    rw [commandPass_eq, hm] at h
    cases h
    exact ⟨.refl here, moreParts_of_rest_eq_nil (rest_eq_nil_of_mark? hm)⟩
  | some mark =>
    cases ho : mark.opensPart with
    | true =>
      obtain ⟨call, step, rfl, hp, hcall⟩ := commandPass_of_opensPart hin hm ho h
      exact hcall.afterCall hp
    | false =>
      have hnext := Cursor.consumes_next (rest_ne_nil_of_mark? hm)
      have hp : part level here = none := part_eq_none_of_mark? hm ho
      have hread := moreParts_of_part_eq_none hp
      rw [hm] at hread
      rw [commandPass_eq, hm] at h
      cases mark with
      | blank =>
        cases h
        exact ⟨hnext, hread.trans (by cases moreParts level here.next <;> rfl)⟩
      | terminator =>
        cases h
        exact ⟨hnext.reaches, hread⟩
      | comment | fillerClose | stringClose =>
        cases h
        exact ⟨.refl here, hread⟩
      | plain | escape | stringOpen | fillerOpen => cases ho

theorem command_reads {mark : Mark} {call : Outcome (Option Command)} (hin : inside.Reads level)
    (hm : mark? cursor = some mark) (ho : mark.opensPart = true)
    (h : command inside fuel cursor = some call) :
    ∃ step, Reader.command level cursor = some step ∧ call.Reads cursor step := by
  obtain ⟨⟨parts, left⟩, hloop, rfl⟩ := Option.map_eq_some_iff.1 h
  have hpass : ∀ here first, commandPass inside fuel here = some first →
      first.Reads id (moreParts level) here := fun _ _ => commandPass_reads hin
  -- The first pass calls for a part, and leaves the loop only if the call fails.
  have hleave : ∀ left, commandPass inside fuel cursor = some (.leave left) →
      cursor.Consumes left.cursor := by
    intro left hleave
    obtain ⟨_, step, hfirst, -, outcome, rfl, -, hconsumes⟩ :=
      commandPass_of_opensPart hin hm ho hleave
    cases outcome <;> cases hfirst
    exact hconsumes
  obtain ⟨-, hread⟩ := loop_reads id hpass hloop
  obtain ⟨step, hp⟩ : ∃ step, part level cursor = some step := exists_part hm ho
  refine ⟨_, command_of_part_eq_some hp, left.map fun () => .mk parts (some cursor.position),
    ?_, ?_, ?_⟩
  · cases left with
    | returned value stop =>
      obtain ⟨first, later, rfl, hposition⟩ := exists_first_of_moreParts hp hread
      simp [Outcome.map, Command.ofParts?, hposition, Except.toOption]
    | raised fault stop => rfl
  · rw [show moreParts level cursor = _ from hread]
    cases left <;> rfl
  · rw [Outcome.cursor_map]
    exact loop_consumes id hpass hleave hloop

/-! ## Programs -/

/-- The pass goes forward, and the commands that it gathered stand before those that the reader
    reads from there; or it leaves the loop where the reader stops. -/
def Pass.ReadsProgram (level : Level) (inFiller : Bool) (here : Cursor) :
    Pass Command Cursor → Prop
  | .again commands next =>
    here.Consumes next ∧ ∀ {later stop}, Reader.program level next = ⟨later, stop⟩ →
      Reader.program level here = ⟨commands ++ later, stop⟩
  | .leave left =>
    here.Reaches left.cursor
      ∧ ∃ stop, Reader.program level here = ⟨[], stop⟩ ∧ Leaves inFiller left stop

/-- Where a part opens, the loop over commands calls for a command. -/
theorem programPass_of_opensPart {mark : Mark} {inFiller : Bool} (hm : mark? cursor = some mark)
    (ho : mark.opensPart = true) :
    programPass inside inFiller fuel cursor = (command inside fuel cursor).map .afterCall := by
  rw [programPass_eq, hm]
  cases mark with
  | plain | escape | stringOpen | fillerOpen => rfl
  | terminator | blank | comment | fillerClose | stringClose => cases ho

theorem programPass_reads {inFiller : Bool} {here : Cursor} {first : Pass Command Cursor}
    (hin : inside.Reads level) (h : programPass inside inFiller fuel here = some first) :
    first.ReadsProgram level inFiller here := by
  cases hm : mark? here with
  | none =>
    have hend := rest_eq_nil_of_mark? hm
    rw [programPass_eq, hm] at h
    cases h
    exact ⟨.refl here, _, program_of_rest_eq_nil hend, .endOfText hend⟩
  | some mark =>
    have hne := rest_ne_nil_of_mark? hm
    cases ho : mark.opensPart with
    | true =>
      -- The call is the whole pass, and it does not return without a command.
      rw [programPass_of_opensPart hm ho] at h
      obtain ⟨call, hcall, rfl⟩ := Option.map_eq_some_iff.1 h
      obtain ⟨_, hc, outcome, rfl, rfl, hconsumes⟩ := command_reads hin hm ho hcall
      cases outcome with
      | returned read after =>
        refine ⟨hconsumes, fun hlater => ?_⟩
        rw [program_of_command_eq_some hc, hlater]
        rfl
      | raised fault after =>
        exact ⟨hconsumes.reaches, _, program_of_command_eq_error hc, .failed⟩
    | false =>
      have hp : part level here = none := part_eq_none_of_mark? hm ho
      have hread := program_of_command_eq_none (command_eq_none_iff.2 hp)
      rw [hm] at hread
      rw [programPass_eq, hm] at h
      cases mark with
      | blank | terminator =>
        cases h
        exact ⟨Cursor.consumes_next hne, fun hlater => hread.trans hlater⟩
      | comment =>
        obtain ⟨call, hcall, rfl⟩ := Option.map_eq_some_iff.1 h
        obtain rfl := comment_eq hm hcall
        exact ⟨consumes_skipComment hne, fun hlater => hread.trans hlater⟩
      | fillerClose =>
        cases inFiller with
        | true =>
          cases h
          exact ⟨.refl here, _, hread, .closing rfl (peek_eq_of_mark? hm rfl)⟩
        | false =>
          cases h
          exact ⟨.refl here, _, hread, .unexpected rfl⟩
      | stringClose =>
        cases h
        exact ⟨.refl here, _, hread, .failed⟩
      | plain | escape | stringOpen | fillerOpen => cases ho

theorem program_reads {inFiller : Bool} {commands : Program} {left : Outcome Unit}
    (hin : inside.Reads level) (h : program inside inFiller fuel cursor = some (commands, left)) :
    cursor.Reaches left.cursor
      ∧ ∃ stop, Reader.program level cursor = ⟨commands, stop⟩ ∧ Leaves inFiller left stop := by
  refine loop_induct (motive := fun here commands left => here.Reaches left.cursor
    ∧ ∃ stop, Reader.program level here = ⟨commands, stop⟩ ∧ Leaves inFiller left stop) ?_ ?_ h
  · intro here left hleave
    exact programPass_reads hin hleave
  · rintro here first next later left hagain ⟨hreaches, stop, hread, hleaves⟩
    obtain ⟨hconsumes, hfirst⟩ := programPass_reads hin hagain
    exact ⟨hconsumes.reaches.trans hreaches, stop, hfirst hread, hleaves⟩

theorem nested_reads (fuel : Nat) : ∀ levels, (nested fuel levels).Reads (atLevel levels)
  | 0 => by
    intro cursor commands left h
    cases h
    exact ⟨.refl cursor, _, rfl, .failed⟩
  | levels + 1 => fun _ _ _ h => program_reads (nested_reads fuel levels) h

end Descent

end Phrasebook
