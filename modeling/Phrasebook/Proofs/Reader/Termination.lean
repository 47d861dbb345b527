import Phrasebook.Proofs.Reader.Levels
import Phrasebook.Proofs.Reader.Places
import Phrasebook.Proofs.Reader.Progress

/-! # The descent ends

A loop of which every pass goes forward is left after as many passes as the text has characters, and
one more. So the descent comes to an end, and that is the end to which the reader comes.

* `Descent.loop_ends` — loops of which every pass ends and goes forward.
* `Descent.word_ends`, `Descent.filler_ends`, `Descent.command_ends`, `Descent.nested_ends` — the
  calls.
* `Descent.Progresses` — what may happen at a cursor.
* `reading_progresses` — whole texts.
-/

namespace Phrasebook

open Reader

namespace Descent

/-! ## Loops and calls -/

section Loops

variable {α σ : Type} (place : σ → Cursor) {pass : σ → Option (Pass α σ)}

/-- By induction on the passes that are left: there are more of them than characters, before a pass
    and after it. -/
theorem loop_ends {bound : Nat}
    (hends : ∀ state, (place state).rest.length < bound → ∃ first, pass state = some first)
    (hforward : ∀ state first next, pass state = some (.again first next) →
      (place state).Consumes (place next))
    {fuel : Nat} (state : σ) (hfuel : (place state).rest.length < fuel)
    (hbound : (place state).rest.length < bound) :
    ∃ pieces left, loop pass fuel state = some (pieces, left) := by
  induction fuel generalizing state with
  | zero => exact absurd hfuel (Nat.not_lt_zero _)
  | succ fuel ih =>
    obtain ⟨first, hfirst⟩ := hends state hbound
    rw [loop, hfirst]
    cases first with
    | again pieces next =>
      have hlt := (hforward state pieces next hfirst).rest_length_lt
      obtain ⟨later, left, hlater⟩ := ih next (by omega) (by omega)
      exact ⟨pieces ++ later, left, by simp only [hlater, Option.map_some]⟩
    | leave left => exact ⟨[], left, rfl⟩

end Loops

variable {inside : Inside} {level : Level} {fuel : Nat} {cursor : Cursor}

theorem word_ends (h : cursor.rest.length < fuel) : ∃ call, word fuel cursor = some call := by
  have hforward : ∀ here first next, some (wordPass here) = some (.again first next) →
      here.Consumes next := by
    intro here first next hagain
    have hreads := wordPass_reads here
    rw [Option.some.inj hagain] at hreads
    exact hreads.1
  obtain ⟨chars, left, hloop⟩ := loop_ends id (fun _ _ => ⟨_, rfl⟩) hforward cursor h h
  exact ⟨_, by rw [word, hloop]; rfl⟩

theorem string_ends (h : cursor.rest.length < fuel) :
    ∃ outcome, string fuel cursor = some outcome := by
  have hforward : ∀ state first next,
      some (stringPass cursor.position state) = some (.again first next) →
      state.2.Consumes next.2 := by
    intro state first next hagain
    have hreads := stringPass_reads cursor.position state
    rw [Option.some.inj hagain] at hreads
    exact hreads.1
  have hinside : cursor.next.rest.length < fuel :=
    Nat.lt_of_le_of_lt (Cursor.next_rest_length_le cursor) h
  obtain ⟨chars, left, hloop⟩ := loop_ends Prod.snd (fun _ _ => ⟨_, rfl⟩) hforward
    (0, cursor.next) hinside hinside
  exact ⟨_, by rw [string, hloop]; rfl⟩

theorem comment_ends (h : cursor.rest.length < fuel) : ∃ call, comment fuel cursor = some call := by
  have hforward : ∀ here first next, some (commentPass here) = some (.again first next) →
      here.Consumes next := by
    rintro ⟨here, text⟩ first next hagain
    cases text with
    | nil => cases hagain
    | cons c rest =>
      rw [commentPass_cons] at hagain
      split at hagain
      · cases hagain
      · cases hagain
        exact Cursor.consumes_advance here c rest
  obtain ⟨pieces, left, hloop⟩ := loop_ends id (fun _ _ => ⟨_, rfl⟩) hforward cursor h h
  exact ⟨_, by rw [comment, hloop]; rfl⟩

/-- Programs inside fillers end, if there are fewer characters than passes. -/
def Inside.Ends (inside : Inside) (fuel : Nat) : Prop :=
  ∀ ⦃cursor : Cursor⦄, cursor.rest.length < fuel →
    ∃ commands left, inside cursor = some (commands, left)

theorem filler_ends (hends : inside.Ends fuel) (h : cursor.rest.length < fuel) :
    ∃ outcome, filler inside cursor = some outcome := by
  obtain ⟨content, left, hr⟩ :=
    hends (Nat.lt_of_le_of_lt (Cursor.next_rest_length_le cursor) h)
  rw [filler, hr]
  cases left with
  | returned value stop =>
    by_cases hpeek : stop.peek = some ')'
    · exact ⟨_, if_pos hpeek⟩
    · exact ⟨_, if_neg hpeek⟩
  | raised fault stop => exact ⟨_, rfl⟩

theorem commandPass_ends (hends : inside.Ends fuel) (h : cursor.rest.length < fuel) :
    ∃ first, commandPass inside fuel cursor = some first := by
  rw [commandPass_eq]
  cases mark? cursor with
  | none => exact ⟨_, rfl⟩
  | some mark =>
    cases mark with
    | fillerOpen =>
      obtain ⟨outcome, hcall⟩ := filler_ends hends h
      exact ⟨_, by rw [hcall]; rfl⟩
    | stringOpen =>
      obtain ⟨outcome, hcall⟩ := string_ends h
      exact ⟨_, by rw [hcall]; rfl⟩
    | plain | escape =>
      obtain ⟨call, hcall⟩ := word_ends h
      exact ⟨_, by rw [hcall]; rfl⟩
    | terminator | blank | comment | fillerClose | stringClose => exact ⟨_, rfl⟩

theorem command_ends (hin : inside.Reads level) (hends : inside.Ends fuel)
    (h : cursor.rest.length < fuel) : ∃ call, command inside fuel cursor = some call := by
  have hpass : ∀ here : Cursor, here.rest.length < fuel →
      ∃ first, commandPass inside fuel here = some first := fun _ => commandPass_ends hends
  obtain ⟨parts, left, hloop⟩ := loop_ends id hpass
    (fun _ _ _ hagain => (commandPass_reads hin hagain).1) cursor h h
  exact ⟨_, by rw [command, hloop]; rfl⟩

theorem programPass_ends {inFiller : Bool} (hin : inside.Reads level) (hends : inside.Ends fuel)
    (h : cursor.rest.length < fuel) :
    ∃ first, programPass inside inFiller fuel cursor = some first := by
  obtain ⟨command, hcommand⟩ := command_ends hin hends h
  rw [programPass_eq]
  cases hm : mark? cursor with
  | none => exact ⟨_, rfl⟩
  | some mark =>
    cases mark with
    | comment =>
      obtain ⟨call, hcall⟩ := comment_ends h
      exact ⟨_, by rw [hcall]; rfl⟩
    | fillerClose => cases inFiller <;> exact ⟨_, rfl⟩
    | plain | escape | stringOpen | fillerOpen => exact ⟨_, by rw [hcommand]; rfl⟩
    | terminator | blank | stringClose => exact ⟨_, rfl⟩

theorem program_ends {inFiller : Bool} (hin : inside.Reads level) (hends : inside.Ends fuel)
    (h : cursor.rest.length < fuel) :
    ∃ commands left, program inside inFiller fuel cursor = some (commands, left) :=
  have hpass : ∀ here : Cursor, here.rest.length < fuel →
      ∃ first, programPass inside inFiller fuel here = some first :=
    fun _ => programPass_ends hin hends
  loop_ends id hpass (fun _ _ _ hagain => (programPass_reads hin hagain).1) cursor h h

theorem nested_ends (fuel : Nat) : ∀ levels, (nested fuel levels).Ends fuel
  | 0 => fun _ _ => ⟨_, _, rfl⟩
  | levels + 1 => fun _ h => program_ends (nested_reads fuel levels) (nested_ends fuel levels) h

/-! ## What may happen at a cursor -/

/-- However the descent comes to the cursor: a pass through the loop over commands goes forward or
    leaves the loop, and so does one through the loop over parts. Where the one calls for a command
    and the other for a word, the call takes a character at least and comes back with a command of
    some parts, or with a word, unless it fails. A program inside a filler ends before a closing
    parenthesis or with the text, unless it fails. What is read, and what fails, is what the reader
    reads and where it fails. -/
structure Progresses (fuel levels : Nat) (cursor : Cursor) : Prop where
  overCommands : ∀ inFiller,
    (∃ commands next, programPass (nested fuel levels) inFiller fuel cursor
        = some (.again commands next) ∧ cursor.Consumes next)
    ∨ ∃ left, programPass (nested fuel levels) inFiller fuel cursor = some (.leave left)
  overParts :
    (∃ parts next, commandPass (nested fuel levels) fuel cursor = some (.again parts next)
        ∧ cursor.Consumes next)
    ∨ ∃ left, commandPass (nested fuel levels) fuel cursor = some (.leave left)
  commandCall : ∀ c ∈ cursor.peek, CallsCommand c → ∃ outcome : Outcome Command,
    command (nested fuel levels) fuel cursor = some (outcome.map some)
    ∧ (∀ inFiller, programPass (nested fuel levels) inFiller fuel cursor
        = some (.afterCall (outcome.map some)))
    ∧ cursor.Consumes outcome.cursor
    ∧ (∀ read stop, outcome = .returned read stop → read.parts ≠ [])
    ∧ Reader.command (atLevel levels) cursor = some outcome.step
  wordCall : ∀ c ∈ cursor.peek, CallsWord c → ∃ outcome : Outcome Part,
    word fuel cursor = some (outcome.map some)
    ∧ commandPass (nested fuel levels) fuel cursor
        = some (.afterCall (outcome.map some))
    ∧ cursor.Consumes outcome.cursor
    ∧ (∀ read stop, outcome = .returned read stop →
        ∃ text, text ≠ [] ∧ read = .word text (some cursor.position))
    ∧ bareWord cursor = outcome.step
  insideFiller : ∃ commands left, nested fuel levels cursor = some (commands, left)
    ∧ cursor.Reaches left.cursor
    ∧ (∀ stop, left = .returned () stop → stop.peek = none ∨ stop.peek = some ')')
    ∧ ∃ stop, (atLevel levels).read cursor = ⟨commands, stop⟩ ∧ Leaves true left stop

theorem progresses (levels : Nat) (h : cursor.rest.length < fuel) :
    Progresses fuel levels cursor where
  overCommands := by
    intro inFiller
    obtain ⟨first, hfirst⟩ :=
      programPass_ends (nested_reads fuel levels) (nested_ends fuel levels) h
    have hreads := programPass_reads (nested_reads fuel levels) hfirst
    cases first with
    | again commands next => exact .inl ⟨commands, next, hfirst, hreads.1⟩
    | leave left => exact .inr ⟨left, hfirst⟩
  overParts := by
    obtain ⟨first, hfirst⟩ := commandPass_ends (nested_ends fuel levels) h
    have hreads := commandPass_reads (nested_reads fuel levels) hfirst
    cases first with
    | again parts next => exact .inl ⟨parts, next, hfirst, hreads.1⟩
    | leave left => exact .inr ⟨left, hfirst⟩
  commandCall := by
    intro c hc hcalls
    have hm := mark?_of_mem_peek hc
    have ho := callsCommand_iff.1 hcalls
    obtain ⟨call, hcall⟩ := command_ends (nested_reads fuel levels) (nested_ends fuel levels) h
    obtain ⟨_, hread, outcome, rfl, rfl, hconsumes⟩ :=
      command_reads (nested_reads fuel levels) hm ho hcall
    refine ⟨outcome, hcall, fun inFiller => ?_, hconsumes, ?_, hread⟩
    · rw [programPass_of_opensPart hm ho, hcall]
      rfl
    · rintro read stop rfl
      exact parts_ne_nil_of_command hread
  wordCall := by
    intro c hc hcalls
    have hm := mark?_of_mem_peek hc
    have hw := callsWord_iff.1 hcalls
    obtain ⟨call, hcall⟩ := word_ends h
    obtain ⟨outcome, rfl, hread, hconsumes⟩ := word_reads hm hw hcall
    refine ⟨outcome, hcall, ?_, hconsumes, ?_, hread.symm⟩
    · rw [commandPass_of_inWord hm hw, hcall]
      rfl
    · rintro read stop rfl
      exact exists_text_of_bareWord hm hw hread.symm
  insideFiller := by
    obtain ⟨commands, left, hread⟩ := nested_ends fuel levels h
    obtain ⟨hreaches, stop, hstop, hleaves⟩ := nested_reads fuel levels hread
    refine ⟨commands, left, hread, hreaches, ?_, stop, hstop, hleaves⟩
    rintro _ rfl
    cases hleaves with
    | endOfText hend => exact .inl (by rw [Cursor.peek, hend]; rfl)
    | closing _ hpeek => exact .inr hpeek

end Descent

/-! ## Whole texts -/

/-- At the top nothing is left to a filler. -/
theorem Descent.Leaves.parse_eq [CallStack] {text : Text} {commands : Program} {left : Outcome Unit}
    {stop : Stop} (h : Leaves false left stop)
    (hread : (atLevel nestingLimit).read (.atStart text) = ⟨commands, stop⟩) :
    left.parse commands = Phrasebook.parse text := by
  rw [Phrasebook.parse, parseWithin, hread]
  cases h with
  | endOfText | unexpected => rfl
  | closing hfiller => cases hfiller
  | @failed fault => cases fault <;> rfl

theorem Cursor.eq_after_of_reaches {text : Text} {stop : Cursor}
    (h : (Cursor.atStart text).Reaches stop) (hend : stop.rest = []) :
    stop = ⟨Position.after text, []⟩ := by
  obtain ⟨passed, hrest, hposition⟩ := h
  obtain ⟨here, rest⟩ := stop
  obtain rfl : rest = [] := hend
  rw [List.append_nil] at hrest
  obtain rfl : text = passed := hrest
  rw [show here = _ from hposition]
  exact congrArg (Cursor.mk · []) (Position.after_append [] text).symm

/-- The descent over a whole text ends, as the reader of as many levels does. -/
theorem Descent.whole_ends {text : Text} {fuel : Nat} (hfuel : text.length < fuel)
    (levels : Nat) :
    ∃ commands left stop, whole fuel levels text = some (commands, left)
      ∧ (Cursor.atStart text).Reaches left.cursor
      ∧ (atLevel (levels + 1)).read (.atStart text) = ⟨commands, stop⟩
      ∧ Leaves false left stop := by
  have hnested := nested_reads fuel levels
  have hstart : (Cursor.atStart text).rest.length < fuel := hfuel
  obtain ⟨commands, left, hwhole⟩ := program_ends hnested (nested_ends fuel levels) hstart
  obtain ⟨hreaches, stop, hread, hleaves⟩ := program_reads hnested hwhole
  exact ⟨commands, left, stop, hwhole, hreaches, hread, hleaves⟩

/-- No loop is gone through more often than the text has characters, and once more: then every pass
    and every call to which the descent may come has ended, and has gone forward where it has to.
    So the descent ends too, whatever the number of levels. Unless it fails, it has taken all of the
    text; and it does not fail for want of levels if there are as many as characters. With the
    levels that the reader has, what it tells of the text is what the reader tells. -/
theorem reading_progresses [CallStack] {text : Text} {fuel : Nat} (hfuel : text.length < fuel) :
    (∀ levels cursor, cursor.On text → Descent.Progresses fuel levels cursor)
    ∧ (∀ levels, ∃ commands left, Descent.whole fuel levels text = some (commands, left)
        ∧ (∀ stop, left = .returned () stop → stop = ⟨Position.after text, []⟩)
        ∧ (text.length ≤ levels → ∀ stop, left ≠ .raised .tooDeep stop))
    ∧ (Descent.whole fuel (nestingLimit - 1) text).map
        (fun (commands, left) => left.parse commands) = some (parse text) := by
  refine ⟨fun levels cursor hon => Descent.progresses levels ?_, fun levels => ?_, ?_⟩
  · obtain ⟨head, rfl, -⟩ := Position.Marks.exists_head hon
    rw [List.length_append] at hfuel
    omega
  · obtain ⟨commands, left, stop, hwhole, hreaches, hread, hleaves⟩ :=
      Descent.whole_ends hfuel levels
    refine ⟨commands, left, hwhole, ?_, ?_⟩
    · rintro _ rfl
      cases hleaves with
      | endOfText hend => exact Cursor.eq_after_of_reaches hreaches hend
      | closing hfiller => cases hfiller
    · rintro hlevels _ rfl
      -- The whole text is read one level above the fillers that stand in it.
      have hdeep := atLevel_suffices (levels + 1) (.atStart text) (Nat.lt_succ_of_le hlevels)
      rw [hread] at hdeep
      cases hleaves
      exact hdeep rfl
  · obtain ⟨commands, left, stop, hwhole, -, hread, hleaves⟩ :=
      Descent.whole_ends hfuel (nestingLimit - 1)
    rw [Nat.sub_add_cancel nestingLimit_pos] at hread
    rw [hwhole]
    exact congrArg some (hleaves.parse_eq hread)

open StandardStack

/-- A word ends with an escaped parenthesis, and a filler holds a line separator, an escaped brace
    and a parenthesis in a comment. Behind it stands a file separator. -/
theorem reading_progresses_of_separators :
    let text := "a\\)(b\u2028\x7b\\\x7d\x7d|)\n)\u001cc".toList
    text.length < 17
      ∧ Descent.Progresses 17 1 (.atStart text)
      ∧ ∃ commands, Descent.whole 17 16 text = some (commands, .returned () ⟨⟨16, 2, 3⟩, []⟩)
        ∧ (Program.inOrder commands).map Part.position?
          = [some ⟨0, 1, 0⟩, some ⟨3, 1, 3⟩, some ⟨4, 1, 4⟩, some ⟨6, 1, 6⟩, some ⟨15, 2, 2⟩]
        ∧ Position.after text = ⟨16, 2, 3⟩ := by
  intro text
  have hfuel : text.length < 17 := by decide
  have hlook : (Descent.whole 17 16 text).map (fun (commands, left) =>
        (left.step.toOption, (Program.inOrder commands).map Part.position?))
      = some (some ((), ⟨⟨16, 2, 3⟩, []⟩), [some ⟨0, 1, 0⟩, some ⟨3, 1, 3⟩, some ⟨4, 1, 4⟩,
          some ⟨6, 1, 6⟩, some ⟨15, 2, 2⟩]) := by
    decide +kernel
  obtain ⟨hprogresses, hends, -⟩ := reading_progresses hfuel
  obtain ⟨commands, left, hwhole, hend, -⟩ := hends 16
  rw [hwhole] at hlook
  obtain ⟨hleft, hplaces⟩ := Prod.mk.inj (Option.some.inj hlook)
  cases left with
  | returned value stop =>
    obtain rfl : stop = ⟨⟨16, 2, 3⟩, []⟩ := (Prod.mk.inj (Option.some.inj hleft)).2
    exact ⟨hfuel, hprogresses 1 (.atStart text) (Position.marks_start text),
      commands, hwhole, hplaces, (Cursor.mk.inj (hend _ rfl)).1.symm⟩
  | raised fault stop => cases hleft

end Phrasebook
