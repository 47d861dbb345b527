import Phrasebook.Proofs.Reader.Descent

/-! # Loops that go forward

What a loop of the descent does in all its passes, from what it does in one, and the loops without
calls: words, strings and comments. They take a character at least, and what comes of them is what
the reader gives.

* `Cursor.Reaches`, `Cursor.Consumes` — cursors behind others.
* `Descent.loop_cases`, `Descent.loop_induct` — a loop and its first pass; one pass and all.
* `Descent.Pass.Reads`, `Descent.Outcome.Reads` — passes and calls that go forward and do what the
  reader does.
* `Descent.word_reads`, `Descent.string_reads`, `Descent.comment_eq` — words, strings and comments.
-/

namespace Phrasebook

open Reader

/-! ## Cursors behind others -/

namespace Cursor

/-- The second cursor is behind the first one, or where it is. -/
def Reaches (cursor after : Cursor) : Prop :=
  ∃ passed, cursor.rest = passed ++ after.rest
    ∧ after.position = cursor.position.advanceOver passed

/-- The second cursor is behind the first one by a character at least. -/
def Consumes (cursor after : Cursor) : Prop :=
  ∃ passed, passed ≠ [] ∧ cursor.rest = passed ++ after.rest
    ∧ after.position = cursor.position.advanceOver passed

variable {cursor between after : Cursor}

theorem Reaches.refl (cursor : Cursor) : cursor.Reaches cursor := ⟨[], rfl, rfl⟩

theorem Consumes.reaches (h : cursor.Consumes after) : cursor.Reaches after :=
  let ⟨passed, _, hpassed⟩ := h
  ⟨passed, hpassed⟩

theorem Reaches.trans (h : cursor.Reaches between) (ha : between.Reaches after) :
    cursor.Reaches after := by
  obtain ⟨passed, hrest, hposition⟩ := h
  obtain ⟨more, hrest', hposition'⟩ := ha
  refine ⟨passed ++ more, by rw [hrest, hrest', List.append_assoc], ?_⟩
  rw [hposition', hposition, Position.advanceOver_append]

theorem Consumes.trans (h : cursor.Consumes between) (ha : between.Reaches after) :
    cursor.Consumes after := by
  obtain ⟨passed, hne, hrest, hposition⟩ := h
  obtain ⟨more, hrest', hposition'⟩ := ha
  refine ⟨passed ++ more, List.append_ne_nil_of_left_ne_nil hne more,
    by rw [hrest, hrest', List.append_assoc], ?_⟩
  rw [hposition', hposition, Position.advanceOver_append]

theorem consumes_advance (here : Position) (c : Char) (rest : Text) :
    Consumes ⟨here, c :: rest⟩ ⟨here.advance c, rest⟩ :=
  ⟨[c], List.cons_ne_nil c [], rfl, rfl⟩

theorem consumes_next (h : cursor.rest ≠ []) : cursor.Consumes cursor.next := by
  obtain ⟨here, text⟩ := cursor
  cases text with
  | nil => exact absurd rfl h
  | cons c rest => exact consumes_advance here c rest

theorem reaches_next (cursor : Cursor) : cursor.Reaches cursor.next := by
  obtain ⟨here, text⟩ := cursor
  cases text with
  | nil => exact .refl _
  | cons c rest => exact (consumes_advance here c rest).reaches

theorem Consumes.rest_length_lt (h : cursor.Consumes after) :
    after.rest.length < cursor.rest.length := by
  obtain ⟨passed, hne, hrest, -⟩ := h
  have hpos := List.length_pos_iff.2 hne
  rw [hrest, List.length_append]
  omega

end Cursor

namespace Descent

/-! ## Loops -/

section Loops

variable {α σ : Type} {pass : σ → Option (Pass α σ)} {fuel : Nat} {state : σ} {pieces : List α}
  {left : Outcome Unit}

theorem loop_cases (h : loop pass fuel state = some (pieces, left)) :
    (pass state = some (.leave left) ∧ pieces = [])
    ∨ ∃ fuel' first next later, fuel = fuel' + 1 ∧ pass state = some (.again first next)
      ∧ loop pass fuel' next = some (later, left) ∧ pieces = first ++ later := by
  cases fuel with
  | zero => cases h
  | succ fuel =>
    rw [loop] at h
    split at h
    · next first next hpass =>
      obtain ⟨⟨later, left'⟩, hlater, heq⟩ := Option.map_eq_some_iff.1 h
      cases heq
      exact .inr ⟨fuel, first, next, later, rfl, hpass, hlater, rfl⟩
    · next left' hpass =>
      cases h
      exact .inl ⟨hpass, rfl⟩
    · cases h

/-- What holds of the pass that leaves a loop, and goes on to hold with another pass before, holds
    of the loop. -/
theorem loop_induct {motive : σ → List α → Outcome Unit → Prop}
    (leave : ∀ state left, pass state = some (.leave left) → motive state [] left)
    (again : ∀ state first next later left, pass state = some (.again first next) →
      motive next later left → motive state (first ++ later) left)
    (h : loop pass fuel state = some (pieces, left)) : motive state pieces left := by
  induction fuel generalizing state pieces with
  | zero => cases h
  | succ fuel ih =>
    obtain ⟨hpass, rfl⟩ | ⟨_, first, next, later, heq, hpass, hlater, rfl⟩ := loop_cases h
    · exact leave state left hpass
    · cases heq
      exact again state first next later left hpass (ih hlater)

/-- The pass goes forward, and then the loop has to read what the reader reads from there; or it
    leaves the loop where the reader stops. -/
def Pass.Reads (place : σ → Cursor) (read : σ → Step (List α)) (state : σ) : Pass α σ → Prop
  | .again pieces next =>
    (place state).Consumes (place next) ∧ read state = (read next).map (pieces ++ ·)
  | .leave left =>
    (place state).Reaches left.cursor ∧ read state = (left.map fun () => []).step

variable (place : σ → Cursor) {read : σ → Step (List α)}

theorem loop_reads (hpass : ∀ state first, pass state = some first → first.Reads place read state)
    (h : loop pass fuel state = some (pieces, left)) :
    (place state).Reaches left.cursor ∧ read state = (left.map fun () => pieces).step := by
  refine loop_induct (motive := fun state pieces left =>
    (place state).Reaches left.cursor ∧ read state = (left.map fun () => pieces).step) ?_ ?_ h
  · intro state left hleave
    exact hpass state _ hleave
  · rintro state first next later left hagain ⟨hreaches, hread⟩
    obtain ⟨hconsumes, hfirst⟩ := hpass state _ hagain
    refine ⟨hconsumes.reaches.trans hreaches, ?_⟩
    rw [hfirst, hread]
    cases left <;> rfl

/-- The pass that leaves the loop may be the first one. If that takes a character too, the loop
    does. -/
theorem loop_consumes
    (hpass : ∀ state first, pass state = some first → first.Reads place read state)
    (hleave : ∀ left, pass state = some (.leave left) → (place state).Consumes left.cursor)
    (h : loop pass fuel state = some (pieces, left)) : (place state).Consumes left.cursor := by
  obtain ⟨hfirst, -⟩ | ⟨_, first, next, later, -, hfirst, hlater, -⟩ := loop_cases h
  · exact hleave left hfirst
  · exact (hpass state _ hfirst).1.trans (loop_reads place hpass hlater).1

end Loops

/-! ## Words and strings -/

/-- The call came back with something if it did not fail, behind the cursor from which it was made,
    and what can be seen of it is the step of the reader. -/
def Outcome.Reads {α : Type} (cursor : Cursor) (step : Step α) (call : Outcome (Option α)) : Prop :=
  ∃ outcome : Outcome α, call = outcome.map some ∧ outcome.step = step
    ∧ cursor.Consumes outcome.cursor

@[simp] theorem Outcome.cursor_map {α β : Type} (f : α → β) (outcome : Outcome α) :
    (outcome.map f).cursor = outcome.cursor := by
  cases outcome <;> rfl

theorem wordPass_reads (here : Cursor) :
    (wordPass here).Reads id (fun here => Reader.word here.position here.rest) here := by
  obtain ⟨here, text⟩ := here
  by_cases hends : EndsWord text
  · rw [wordPass_of_endsWord hends]
    exact ⟨.refl _, word_of_endsWord hends here⟩
  · obtain ⟨c, rest, rfl, hw⟩ := exists_inWord_of_not_endsWord hends
    have hnext := Cursor.consumes_advance here c rest
    rw [wordPass_cons hw]
    split
    · next hm =>
      cases rest with
      | nil => exact ⟨hnext.reaches, by simp [Reader.word, hm, Outcome.map, Outcome.step]⟩
      | cons d rest =>
        exact ⟨hnext.trans (Cursor.consumes_advance _ d rest).reaches,
          by simp [Reader.word, hm, Step.cons_eq_map]⟩
    · next hm =>
      have hplain : Mark.of c = .plain := (Mark.inWord_iff.1 hw).resolve_right hm
      exact ⟨hnext, by simp [Reader.word, hplain, Step.cons_eq_map]⟩

theorem word_reads {fuel : Nat} {cursor : Cursor} {mark : Mark} {call : Outcome (Option Part)}
    (hm : mark? cursor = some mark) (hw : mark.inWord = true) (h : word fuel cursor = some call) :
    call.Reads cursor (bareWord cursor) := by
  obtain ⟨here, text⟩ := cursor
  obtain ⟨c, rest, rfl, rfl⟩ := rest_eq_of_mark? hm
  obtain ⟨⟨chars, left⟩, hloop, rfl⟩ := Option.map_eq_some_iff.1 h
  have hpass : ∀ here first, some (wordPass here) = some first →
      first.Reads id (fun here => Reader.word here.position here.rest) here := by
    rintro here _ ⟨⟩
    exact wordPass_reads here
  have hleave : ∀ left, some (wordPass ⟨here, c :: rest⟩) = some (.leave left) →
      Cursor.Consumes ⟨here, c :: rest⟩ left.cursor := by
    -- The first pass leaves the loop only if nothing stands behind the backslash.
    intro left hleave
    rw [wordPass_cons hw] at hleave
    split at hleave
    · cases rest with
      | nil =>
        cases hleave
        exact Cursor.consumes_advance here c []
      | cons d rest => cases hleave
    · cases hleave
  obtain ⟨-, hread⟩ := loop_reads id hpass hloop
  refine ⟨left.map fun () => .word chars (some here), ?_, ?_, ?_⟩
  · cases left with
    | returned value stop =>
      have hne : chars ≠ [] := word_ne_nil hw hread
      simp [Outcome.map, Part.word?, hne, Except.toOption]
    | raised fault stop => rfl
  · rw [bareWord_eq_map, hread]
    cases left <;> rfl
  · rw [Outcome.cursor_map]
    exact loop_consumes id hpass hleave hloop

theorem stringPass_reads (opening : Position) (state : Nat × Cursor) :
    (stringPass opening state).Reads Prod.snd
      (fun state => quoted opening state.1 state.2.position state.2.rest) state := by
  obtain ⟨nesting, here, text⟩ := state
  cases text with
  | nil => exact ⟨.refl _, rfl⟩
  | cons c rest =>
    have hnext := Cursor.consumes_advance here c rest
    rw [stringPass_cons]
    cases hm : Mark.of c with
    | escape =>
      cases rest with
      | nil => exact ⟨hnext.reaches, by simp [quoted, hm, Outcome.map, Outcome.step]⟩
      | cons d rest =>
        refine ⟨hnext.trans (Cursor.consumes_advance _ d rest).reaches, ?_⟩
        simp only [quoted, hm, Step.cons_eq_map]
        cases quoted opening nesting ((here.advance c).advance d) rest <;> rfl
    | stringOpen => exact ⟨hnext, by simp [quoted, hm, Step.cons_eq_map]⟩
    | stringClose =>
      cases nesting with
      | zero => exact ⟨hnext.reaches, by simp [quoted, hm, Outcome.map, Outcome.step]⟩
      | succ nesting => exact ⟨hnext, by simp [quoted, hm, Step.cons_eq_map]⟩
    | terminator | blank | comment | fillerOpen | fillerClose | plain =>
      exact ⟨hnext, by simp [quoted, hm, Step.cons_eq_map]⟩

theorem string_reads {fuel : Nat} {cursor : Cursor} {outcome : Outcome Part}
    (hm : mark? cursor = some .stringOpen) (h : string fuel cursor = some outcome) :
    (outcome.map some).Reads cursor (Reader.string cursor) := by
  obtain ⟨⟨chars, left⟩, hloop, rfl⟩ := Option.map_eq_some_iff.1 h
  have hpass : ∀ state first, some (stringPass cursor.position state) = some first →
      first.Reads Prod.snd
        (fun state => quoted cursor.position state.1 state.2.position state.2.rest) state := by
    rintro state _ ⟨⟩
    exact stringPass_reads cursor.position state
  obtain ⟨hreaches, hread⟩ := loop_reads Prod.snd hpass hloop
  refine ⟨_, rfl, ?_, ?_⟩
  · rw [string_eq_map, hread]
    cases left <;> rfl
  · rw [Outcome.cursor_map]
    exact (Cursor.consumes_next (rest_ne_nil_of_mark? hm)).trans hreaches

/-! ## Comments -/

theorem comment_eq {fuel : Nat} {cursor : Cursor} {call : Outcome Unit}
    (hm : mark? cursor = some .comment) (h : comment fuel cursor = some call) :
    call = .returned () (skipComment cursor) := by
  obtain ⟨here, text⟩ := cursor
  obtain ⟨c, rest, rfl, hc⟩ := rest_eq_of_mark? hm
  obtain rfl := (Mark.of_eq_iff rfl).1 hc
  obtain ⟨⟨pieces, left⟩, hloop, rfl⟩ := Option.map_eq_some_iff.1 h
  refine loop_induct (motive := fun here _ left =>
    left = .returned () (here.skipWhile (· != '\n'))) ?_ ?_ hloop
  · rintro ⟨here, text⟩ left hleave
    cases text with
    | nil =>
      cases hleave
      rfl
    | cons c rest =>
      rw [commentPass_cons] at hleave
      split at hleave
      · next hc =>
        cases hleave
        simp [Cursor.skipWhile, hc]
      · cases hleave
  · rintro ⟨here, text⟩ first next later left hagain rfl
    cases text with
    | nil => cases hagain
    | cons c rest =>
      rw [commentPass_cons] at hagain
      split at hagain
      · cases hagain
      · next hc =>
        cases hagain
        simp [Cursor.skipWhile, hc]

theorem consumes_skipComment {cursor : Cursor} (h : cursor.rest ≠ []) :
    cursor.Consumes (skipComment cursor) :=
  (Cursor.consumes_next h).trans
    ⟨_, List.takeWhile_append_dropWhile.symm, rfl⟩

end Descent

end Phrasebook
