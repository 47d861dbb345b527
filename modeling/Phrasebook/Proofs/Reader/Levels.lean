import Phrasebook.Proofs.Reader.Steps

/-! # Levels enough

The reader fails for want of levels only where more fillers are open than it has levels. Each of
them has taken a character, so that a text is never too deep for as many levels as it has
characters, and one more.

* `Reader.Level.Suffices` — levels for all that is not too long.
* `Reader.part_ne_tooDeep`, `Reader.moreParts_ne_tooDeep`, `Reader.program_ne_tooDeep` — what is
  read with such a level inside.
* `Reader.atLevel_suffices` — the levels themselves.

Levels to spare change nothing.

* `Reader.Level.Below` — a level that reads as another does, unless that one fails for want of
  levels.
* `Reader.part_of_below` … `Reader.program_of_below` — what is read with such a level inside.
* `parseWithin_of_le`, `parseProgramWithin_of_le` — whole texts.
-/

namespace Phrasebook

namespace Reader

variable {level : Level} {bound : Nat} {cursor : Cursor}

/-! ## Words and strings -/

theorem word_ne_tooDeep (here : Position) (text : Text) : word here text ≠ .error .tooDeep := by
  fun_induction word here text with
  | case1 | case3 | case5 => simp [fault]
  | case2 here c rest hm ih => exact fun h => ih (Step.cons_eq_error h)
  | case4 here c d rest hm ih => exact fun h => ih (Step.cons_eq_error h)

theorem quoted_ne_tooDeep (opening here : Position) (nesting : Nat) (text : Text) :
    quoted opening nesting here text ≠ .error .tooDeep := by
  fun_induction quoted opening nesting here text with
  | case1 | case2 | case5 => simp [fault]
  | case3 nesting here c d rest hm ih =>
    exact fun h => ih (Step.cons_eq_error (Step.cons_eq_error h))
  | case4 nesting here c rest hm ih => exact fun h => ih (Step.cons_eq_error h)
  | case6 here c rest hm nesting ih => exact fun h => ih (Step.cons_eq_error h)
  | case7 nesting here c rest hlast hmore hopen hclose ih =>
    exact fun h => ih (Step.cons_eq_error h)

/-! ## Commands and programs -/

/-- No program is too deep for the level if less than the bound is left of the text. -/
def Level.Suffices (level : Level) (bound : Nat) : Prop :=
  ∀ cursor : Cursor, cursor.rest.length < bound → (level.read cursor).stop ≠ .failed .tooDeep

theorem filler_ne_tooDeep (hl : level.Suffices bound) (hm : mark? cursor = some .fillerOpen)
    (h : cursor.rest.length ≤ bound) : filler level cursor ≠ .error .tooDeep := by
  have hinside := hl cursor.next (Nat.lt_of_lt_of_le (next_shorter hm) h)
  rw [filler]
  split
  · simp
  · simp [fault]
  · next e hr =>
    rw [hr] at hinside
    rintro ⟨⟩
    exact hinside rfl

theorem part_ne_tooDeep (hl : level.Suffices bound) (h : cursor.rest.length ≤ bound) :
    part level cursor ≠ some (.error .tooDeep) := by
  rw [part]
  split
  · next hm => exact fun hp => filler_ne_tooDeep hl hm h (Option.some.inj hp)
  · rw [string_eq_map]
    exact fun hp => quoted_ne_tooDeep _ _ _ _ (Step.map_eq_error (Option.some.inj hp))
  · rw [bareWord_eq_map]
    exact fun hp => word_ne_tooDeep _ _ (Step.map_eq_error (Option.some.inj hp))
  · rw [bareWord_eq_map]
    exact fun hp => word_ne_tooDeep _ _ (Step.map_eq_error (Option.some.inj hp))
  · simp

theorem moreParts_ne_tooDeep (hl : level.Suffices bound) (h : cursor.rest.length ≤ bound) :
    moreParts level cursor ≠ .error .tooDeep := by
  fun_induction moreParts level cursor with
  | case1 cursor read after hp ih =>
    have hlt := part_shorter hp
    exact fun hs => ih (by omega) (Step.cons_eq_error hs)
  | case2 cursor fault hp =>
    rintro ⟨⟩
    exact part_ne_tooDeep hl h hp
  | case3 cursor hp hm ih => exact ih (Nat.le_trans (Cursor.next_rest_length_le cursor) h)
  | case4 | case5 | case6 => simp [fault]

theorem command_ne_tooDeep (hl : level.Suffices bound) (h : cursor.rest.length ≤ bound) :
    command level cursor ≠ some (.error .tooDeep) := by
  cases hp : part level cursor with
  | none =>
    rw [command_eq_none_iff.2 hp]
    exact (Option.some_ne_none _).symm
  | some step =>
    rw [command_of_part_eq_some hp]
    exact fun hc => moreParts_ne_tooDeep hl h (Step.map_eq_error (Option.some.inj hc))

theorem program_ne_tooDeep (hl : level.Suffices bound) (h : cursor.rest.length ≤ bound) :
    (program level cursor).stop ≠ .failed .tooDeep := by
  fun_induction program level cursor with
  | case1 cursor read after hc ih =>
    have hlt := command_shorter hc
    exact ih (by omega)
  | case2 cursor fault hc =>
    rintro ⟨⟩
    exact command_ne_tooDeep hl h hc
  | case3 | case4 | case5 => simp [fault]
  | case6 cursor hc hm ih =>
    have hlt := skipComment_shorter hm
    exact ih (by omega)
  | case7 cursor hc mark hclose hstring hcomment hm ih =>
    exact ih (Nat.le_trans (Cursor.next_rest_length_le cursor) h)

/-- Each level takes a parenthesis, so that less is left for the level below. -/
theorem atLevel_suffices : ∀ levels, (atLevel levels).Suffices levels
  | 0 => fun _ h => absurd h (Nat.not_lt_zero _)
  | levels + 1 => fun _ h => program_ne_tooDeep (atLevel_suffices levels) (Nat.le_of_lt_succ h)

/-! ## Levels to spare -/

/-- Whatever the first level does not find too deep, the other one reads alike. -/
def Level.Below (level deeper : Level) : Prop :=
  ∀ cursor, (level.read cursor).stop ≠ .failed .tooDeep → deeper.read cursor = level.read cursor

variable {deeper : Level}

theorem filler_of_below (hl : level.Below deeper) (h : filler level cursor ≠ .error .tooDeep) :
    filler deeper cursor = filler level cursor := by
  have hinside : (level.read cursor.next).stop ≠ .failed .tooDeep := by
    intro hstop
    refine h ?_
    rw [filler]
    split
    · next hr => rw [hr] at hstop; cases hstop
    · next hr => rw [hr] at hstop; cases hstop
    · next hr =>
      rw [hr] at hstop
      exact congrArg Except.error (Stop.failed.inj hstop)
  rw [filler, filler, hl _ hinside]

theorem part_of_below (hl : level.Below deeper) (h : part level cursor ≠ some (.error .tooDeep)) :
    part deeper cursor = part level cursor := by
  rw [part] at h ⊢
  rw [part]
  split at h
  · exact congrArg some (filler_of_below hl fun hf => h (congrArg some hf))
  · rfl
  · rfl
  · rfl
  · rfl

theorem moreParts_of_below (hl : level.Below deeper)
    (h : moreParts level cursor ≠ .error .tooDeep) :
    moreParts deeper cursor = moreParts level cursor := by
  fun_induction moreParts level cursor with
  | case1 cursor read after hp ih =>
    have hpart : part deeper cursor = part level cursor :=
      part_of_below hl (by simp [hp])
    rw [moreParts_of_part_eq_some (hpart.trans hp), ih fun hs => h (by rw [hs]; rfl)]
  | case2 cursor fault hp =>
    have hpart : part deeper cursor = part level cursor :=
      part_of_below hl (by rw [hp]; simpa using h)
    rw [moreParts_of_part_eq_error (hpart.trans hp)]
  | case3 cursor hp hm ih =>
    have hpart : part deeper cursor = part level cursor :=
      part_of_below hl (by simp [hp])
    rw [moreParts_of_part_eq_none (hpart.trans hp), hm]
    exact ih h
  | case4 cursor hp hm | case5 cursor hp hm =>
    have hpart : part deeper cursor = part level cursor :=
      part_of_below hl (by simp [hp])
    rw [moreParts_of_part_eq_none (hpart.trans hp), hm]
  | case6 cursor hp hblank hterminator hstring =>
    have hpart : part deeper cursor = part level cursor :=
      part_of_below hl (by simp [hp])
    rw [moreParts_of_part_eq_none (hpart.trans hp)]
    split <;> simp_all

theorem command_of_below (hl : level.Below deeper)
    (h : command level cursor ≠ some (.error .tooDeep)) :
    command deeper cursor = command level cursor := by
  cases hp : part level cursor with
  | none =>
    have hpart : part deeper cursor = part level cursor :=
      part_of_below hl (by simp [hp])
    rw [command_eq_none_iff.2 hp, command_eq_none_iff.2 (hpart.trans hp)]
  | some step =>
    rw [command_of_part_eq_some hp] at h ⊢
    have hparts : moreParts level cursor ≠ .error .tooDeep := fun hs => h (by rw [hs]; rfl)
    have hpart : part deeper cursor = part level cursor := by
      refine part_of_below hl fun hs => ?_
      rw [moreParts_of_part_eq_error hs] at hparts
      exact hparts rfl
    rw [command_of_part_eq_some (hpart.trans hp), moreParts_of_below hl hparts]

theorem program_of_below (hl : level.Below deeper)
    (h : (program level cursor).stop ≠ .failed .tooDeep) :
    program deeper cursor = program level cursor := by
  fun_induction program level cursor with
  | case1 cursor read after hc ih =>
    have hcommand : command deeper cursor = command level cursor :=
      command_of_below hl (by simp [hc])
    rw [program_of_command_eq_some (hcommand.trans hc), ih h]
  | case2 cursor fault hc =>
    have hcommand : command deeper cursor = command level cursor :=
      command_of_below hl (by rw [hc]; simpa using h)
    rw [program_of_command_eq_error (hcommand.trans hc)]
  | case3 cursor hc hm | case4 cursor hc hm | case5 cursor hc hm =>
    have hcommand : command deeper cursor = command level cursor :=
      command_of_below hl (by simp [hc])
    rw [program_of_command_eq_none (hcommand.trans hc), hm]
  | case6 cursor hc hm ih =>
    have hcommand : command deeper cursor = command level cursor :=
      command_of_below hl (by simp [hc])
    rw [program_of_command_eq_none (hcommand.trans hc), hm]
    exact ih h
  | case7 cursor hc mark hclose hstring hcomment hm ih =>
    have hcommand : command deeper cursor = command level cursor :=
      command_of_below hl (by simp [hc])
    rw [program_of_command_eq_none (hcommand.trans hc), hm]
    cases mark <;> simp_all

theorem atLevel_below : ∀ {levels more : Nat}, levels ≤ more →
    (atLevel levels).Below (atLevel more)
  | 0, _, _ => fun _ h => absurd rfl h
  | _ + 1, _ + 1, hle => fun _ h =>
    program_of_below (atLevel_below (Nat.le_of_succ_le_succ hle)) h

end Reader

/-- A text that does not nest too deep for some levels is read alike within more. -/
theorem parseWithin_of_le {levels more : Nat} {text : Text} (hle : levels ≤ more)
    (h : parseWithin levels text ≠ .error .tooDeep) :
    parseWithin more text = parseWithin levels text := by
  have hread : ((Reader.atLevel levels).read (.atStart text)).stop ≠ .failed .tooDeep := by
    intro hstop
    refine h ?_
    rw [parseWithin]
    split <;> simp_all
  rw [parseWithin, parseWithin, Reader.atLevel_below hle _ hread]

theorem parseProgramWithin_of_le {levels more : Nat} {text : Text} (hle : levels ≤ more)
    (h : parseProgramWithin levels text ≠ .error .tooDeep) :
    parseProgramWithin more text = parseProgramWithin levels text := by
  have hread : parseWithin levels text ≠ .error .tooDeep := by
    intro hdeep
    refine h ?_
    rw [parseProgramWithin, hdeep]
    rfl
  rw [parseProgramWithin, parseWithin_of_le hle hread, parseProgramWithin]

end Phrasebook
