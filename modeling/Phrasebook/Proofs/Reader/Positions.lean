import Phrasebook.Proofs.Grammar.Soundness
import Phrasebook.Proofs.Reader.Places

/-! # Positions are truthful

The reader keeps the position in step with the text, so what it remembers of a place is what would
be found by looking at the text from its beginning.

* `Reader.word_stays`, `Reader.quoted_stays` — the inside of words and of strings.
* `Reader.part_places`, `Reader.moreParts_places`, `Reader.program_placed` — what is read is located
  and spread over what was taken of the text, one lemma for each reading function.
* `Reader.atLevel_truthful` — fillers, level by level.
* `positions_truthful` — whole texts.
-/

namespace Phrasebook

/-! ## Reading -/

/-- What is wrong with the text is wrong at a place in it. -/
def ParseFault.Located (text : Text) : ParseFault → Prop
  | .malformed e => e.position = Position.locate text e.position.offset
  | .tooDeep => True

theorem ParseFault.located_fault {text rest : Text} {here : Position} (h : here.Marks text rest)
    (cause : SyntaxError.Cause) : (Reader.fault cause here).Located text := h.locate_eq

namespace Reader

variable {text : Text} {level : Level}

/-- A reading function goes on to another place in the text, or fails at one. -/
def Step.Stays {α : Type} (text : Text) : Step α → Prop
  | .ok (_, after) => after.On text
  | .error fault => fault.Located text

theorem Step.Stays.cons {α : Type} {piece : α} {step : Step (List α)} (h : step.Stays text) :
    (step.cons piece).Stays text := by
  match step with
  | .ok _ => exact h
  | .error _ => exact h

theorem Step.Stays.map {α β : Type} {f : α → β} {step : Step α} (h : step.Stays text) :
    (step.map f).Stays text := by
  match step with
  | .ok _ => exact h
  | .error _ => exact h

/-! ### Words and strings -/

theorem word_stays {here : Position} {rest : Text} (h : here.Marks text rest) :
    (word here rest).Stays text := by
  fun_induction word here rest with
  | case1 => exact h
  | case2 here c rest hm ih => exact (ih h.advance).cons
  | case3 here c hm => exact ParseFault.located_fault h _
  | case4 here c d rest hm ih => exact (ih h.advance.advance).cons
  | case5 => exact h

theorem quoted_stays {opening here : Position} {nesting : Nat} {whole rest : Text}
    (ho : opening.Marks text whole) (h : here.Marks text rest) :
    (quoted opening nesting here rest).Stays text := by
  fun_induction quoted opening nesting here rest with
  | case1 => exact ParseFault.located_fault ho _
  | case2 nesting here c hm => exact ParseFault.located_fault h _
  | case3 nesting here c d rest hm ih => exact (ih h.advance.advance).cons.cons
  | case4 nesting here c rest hm ih => exact (ih h.advance).cons
  | case5 here c rest hm => exact h.advance
  | case6 here c rest hm nesting ih => exact (ih h.advance).cons
  | case7 nesting here c rest hlast hmore hopen hclose ih => exact (ih h.advance).cons

/-! ### Parts -/

/-- What a reading function gives back is spread over what it took of the text, from an offset on;
    or it fails at a place in the text. -/
def Step.Places {α : Type} (text : Text) (lo : Int) (inOrder : α → List Part) : Step α → Prop
  | .ok (read, after) => after.On text ∧ Part.Spread text lo after.position.offset (inOrder read)
  | .error fault => fault.Located text

theorem Step.Stays.places {α : Type} {step : Step α} {lo : Int} {inOrder : α → List Part}
    (h : step.Stays text) (hs : ∀ read after, step = .ok (read, after) → after.On text →
      Part.Spread text lo after.position.offset (inOrder read)) :
    step.Places text lo inOrder := by
  match step with
  | .ok (read, after) => exact ⟨h, hs read after rfl h⟩
  | .error _ => exact h

theorem Step.Places.mono {α : Type} {step : Step α} {lo lo' : Int} {inOrder : α → List Part}
    (h : step.Places text lo inOrder) (hlo : lo' ≤ lo) : step.Places text lo' inOrder := by
  match step with
  | .ok _ => exact ⟨h.1, h.2.mono hlo (Int.le_refl _)⟩
  | .error _ => exact h

/-- A part in front of other parts. -/
theorem Step.Places.cons {step : Step (List Part)} {lo mid : Int} {piece : Part}
    (h : step.Places text mid Part.allInOrder) (hs : Part.Spread text lo mid piece.inOrder) :
    (step.cons piece).Places text lo Part.allInOrder := by
  match step with
  | .ok _ => exact ⟨h.1, hs.append h.2⟩
  | .error _ => exact h

/-- The offset at which a sequence of commands stopped. -/
def Stop.offset (text : Text) : Stop → Int
  | .closing here => here.position.offset
  | .endOfText | .failed _ => text.length

def Stop.Stays (text : Text) : Stop → Prop
  | .endOfText => True
  | .closing here => here.On text
  | .failed fault => fault.Located text

/-- The commands are located, and their parts are spread over the text from an offset to where the
    reading stopped, which is a place in the text. -/
structure Reading.Placed (text : Text) (lo : Int) (reading : Reading) : Prop where
  commands : ∀ command ∈ reading.commands, command.Located text
  spread : Part.Spread text lo (reading.stop.offset text) (Program.inOrder reading.commands)
  stop : reading.stop.Stays text

/-- The reader of the level places what it reads. -/
def Level.Truthful (level : Level) (text : Text) : Prop :=
  ∀ cursor : Cursor, cursor.On text →
    (level.read cursor).Placed text cursor.position.offset

theorem bareWord_places {cursor : Cursor} {mark : Mark} (h : cursor.On text)
    (hm : mark? cursor = some mark) (hw : mark = .plain ∨ mark = .escape) :
    (bareWord cursor).Places text cursor.position.offset Part.inOrder := by
  have hstays : (bareWord cursor).Stays text := by
    rw [bareWord_eq_map]
    exact (word_stays h).map
  refine hstays.places fun read after hread hafter => ?_
  have hlt := h.offset_lt hafter (bareWord_shorter hm hw hread)
  rw [bareWord_eq_map] at hread
  obtain ⟨word, hr, rfl⟩ := Step.map_eq_ok hread
  obtain ⟨spelling, hrest, hspells, hends⟩ := word_sound hr
  exact .singleton (.word (hrest ▸ h) hspells hends) rfl hlt

theorem string_places {cursor : Cursor} (h : cursor.On text)
    (hm : mark? cursor = some .stringOpen) :
    (string cursor).Places text cursor.position.offset Part.inOrder := by
  have hstays : (string cursor).Stays text := by
    rw [string_eq_map]
    exact (quoted_stays h h.next).map
  refine hstays.places fun read after hread hafter => ?_
  have hlt := h.offset_lt hafter (string_shorter hm hread)
  rw [string_eq_map] at hread
  obtain ⟨content, hr, rfl⟩ := Step.map_eq_ok hread
  -- The content was read from behind the opening brace; the cursor stands before it.
  obtain ⟨hrest, -⟩ := quoted_sound hr
  obtain ⟨c, rest, hc, hmark⟩ := rest_eq_of_mark? hm
  obtain rfl := (Mark.of_eq_iff rfl).1 hmark
  have hhere : cursor.position.Marks text (content.braced ++ after.rest) := by
    have hbraced : cursor.rest = content.braced ++ after.rest := by
      rw [Cursor.next_rest_of_cons hc] at hrest
      rw [hc, hrest]
      simp [Text.braced]
    rw [← hbraced]
    exact h
  exact .singleton (.string hhere) rfl hlt

theorem filler_places {cursor : Cursor} (h : cursor.On text) (hl : level.Truthful text)
    (hm : mark? cursor = some .fillerOpen) :
    (filler level cursor).Places text cursor.position.offset Part.inOrder := by
  have hinside := hl cursor.next h.next
  obtain ⟨c, rest, hc, hmark⟩ := rest_eq_of_mark? hm
  obtain rfl := (Mark.of_eq_iff rfl).1 hmark
  rw [filler]
  split
  · next content stop hr =>
    rw [hr] at hinside
    have hstop : stop.On text := hinside.stop
    have hhere : cursor.position.Marks text ('(' :: rest) := by
      rw [← hc]
      exact h
    have hlocated : Part.Located text (.filler content (some cursor.position)) :=
      .filler hhere hinside.commands
    -- The parenthesis stands before all that is inside, and what is inside before the other one.
    have hopening := Part.Spread.singleton hlocated rfl (h.offset_lt h.next (next_shorter hm))
    exact ⟨hstop.next,
      hopening.append (hinside.spread.mono (Int.le_refl _) hstop.offset_le_next)⟩
  · exact ParseFault.located_fault h _
  · next fault hr =>
    rw [hr] at hinside
    exact hinside.stop

theorem part_places {cursor : Cursor} {step : Step Part} (h : cursor.On text)
    (hl : level.Truthful text) (hp : part level cursor = some step) :
    step.Places text cursor.position.offset Part.inOrder := by
  rw [part] at hp
  split at hp
  · next hm =>
    cases hp
    exact filler_places h hl hm
  · next hm =>
    cases hp
    exact string_places h hm
  · next hm =>
    cases hp
    exact bareWord_places h hm (.inl rfl)
  · next hm =>
    cases hp
    exact bareWord_places h hm (.inr rfl)
  · cases hp

/-! ### Commands -/

theorem moreParts_places {cursor : Cursor} (h : cursor.On text) (hl : level.Truthful text) :
    (moreParts level cursor).Places text cursor.position.offset Part.allInOrder := by
  fun_induction moreParts level cursor with
  | case1 cursor read after hp ih =>
    obtain ⟨hafter, hread⟩ := part_places h hl hp
    exact (ih hafter).cons hread
  | case2 cursor fault hp => exact part_places h hl hp
  | case3 cursor hp hm ih =>
    -- Where the white space stood nothing begins.
    exact (ih h.next).mono h.offset_le_next
  | case4 cursor hp hm => exact ⟨h.next, .nil h.offset_le_next⟩
  | case5 cursor hp hm => exact ParseFault.located_fault h _
  | case6 cursor hp hblank hterminator hclose => exact ⟨h, .nil (Int.le_refl _)⟩

/-- Where a part begins, the command that is read is located. -/
theorem command_located {cursor after : Cursor} {read : Command} (h : cursor.On text)
    (hc : command level cursor = some (.ok (read, after))) : read.Located text := by
  rw [command] at hc
  split at hc
  · next first behind hp =>
    have hfirst := part_position? hp
    split at hc
    · next parts stop hs =>
      cases hc
      exact ⟨first, parts, cursor.position, rfl, hfirst, hfirst, h.locate_eq⟩
    · cases hc
  · cases hc
  · cases hc

theorem command_places {cursor : Cursor} {step : Step Command} (h : cursor.On text)
    (hl : level.Truthful text) (hc : command level cursor = some step) :
    step.Places text cursor.position.offset Command.inOrder := by
  cases hp : part level cursor with
  | none =>
    rw [command_eq_none_iff.2 hp] at hc
    cases hc
  | some first =>
    rw [command_of_part_eq_some hp] at hc
    cases hc
    -- The first part is read again as the first of all parts, from the same cursor.
    have hparts := moreParts_places h hl
    cases hr : moreParts level cursor with
    | error fault =>
      rw [hr] at hparts
      exact hparts
    | ok step =>
      rw [hr] at hparts
      exact hparts

/-! ### Programs -/

theorem Reading.Placed.mono {lo lo' : Int} {reading : Reading} (h : reading.Placed text lo)
    (hlo : lo' ≤ lo) : reading.Placed text lo' :=
  ⟨h.commands, h.spread.mono hlo (Int.le_refl _), h.stop⟩

/-- Where there are no commands only the place at which that was seen is told. -/
theorem Reading.Placed.nil {lo : Int} {stop : Stop} (hlo : lo ≤ stop.offset text)
    (hs : stop.Stays text) : Reading.Placed text lo ⟨[], stop⟩ :=
  ⟨nofun, .nil hlo, hs⟩

theorem program_placed {cursor : Cursor} (h : cursor.On text) (hl : level.Truthful text) :
    (program level cursor).Placed text cursor.position.offset := by
  fun_induction program level cursor with
  | case1 cursor read after hc ih =>
    obtain ⟨hafter, hread⟩ := command_places h hl hc
    have hothers := ih hafter
    exact ⟨List.forall_mem_cons.2 ⟨command_located h hc, hothers.commands⟩,
      hread.append hothers.spread, hothers.stop⟩
  | case2 cursor fault hc => exact .nil h.offset_le_length (command_places h hl hc)
  | case3 cursor hc hm => exact .nil h.offset_le_length trivial
  | case4 cursor hc hm => exact .nil (Int.le_refl _) h
  | case5 cursor hc hm => exact .nil h.offset_le_length (ParseFault.located_fault h _)
  | case6 cursor hc hm ih =>
    have hle := h.offset_le h.skipComment (Nat.le_of_lt (skipComment_shorter hm))
    exact (ih h.skipComment).mono hle
  | case7 cursor hc mark hclose hstring hcomment hm ih =>
    exact (ih h.next).mono h.offset_le_next

theorem atLevel_truthful (text : Text) : ∀ n, (atLevel n).Truthful text
  -- At level zero no place is told.
  | 0 => fun _ h => .nil h.offset_le_length trivial
  | n + 1 => fun _ h => program_placed h (atLevel_truthful text n)

end Reader

/-! ## Whole texts -/

theorem Ending.error?_ofError (e : SyntaxError) : (Ending.ofError e).error? = some e := by
  rw [ofError]
  split <;> rfl

/-- What is read of a whole text, whether it can be read to its end or not. -/
theorem placed_of_parse [CallStack] {text : Text} {read : Parse} (h : parse text = .ok read) :
    (∀ command ∈ read.program, command.Located text)
    ∧ Part.Spread text 0 text.length (Program.inOrder read.program)
    ∧ ∀ e, read.ending.error? = some e → e.position = Position.locate text e.position.offset := by
  have hplaced := Reader.atLevel_truthful text nestingLimit (.atStart text)
    (Position.marks_start text)
  rw [parse, parseWithin] at h
  split at h
  · next commands hr =>
    cases h
    rw [hr] at hplaced
    refine ⟨hplaced.commands, hplaced.spread, ?_⟩
    intro e he
    cases he
  · next commands stop hr =>
    -- A parenthesis closes nothing; it is where the commands stopped.
    cases h
    rw [hr] at hplaced
    have hstop : stop.On text := hplaced.stop
    refine ⟨hplaced.commands, hplaced.spread.mono (Int.le_refl _) hstop.offset_le_length, ?_⟩
    intro e he
    rw [Ending.error?_ofError] at he
    cases he
    exact hstop.locate_eq
  · next commands error hr =>
    cases h
    rw [hr] at hplaced
    refine ⟨hplaced.commands, hplaced.spread, ?_⟩
    intro e he
    rw [Ending.error?_ofError] at he
    cases he
    exact hplaced.stop
  · cases h

/-- Positions are truthful, in programs that were read to the end of their text and in those that
    were cut short or broken off. Every command, at every depth, says where its first part begins,
    and every part where it does: the row and the column are those that are counted in the text, and
    from there the text goes on with the part. The parts of the program begin one behind the other,
    those inside a filler behind its parenthesis and before the part that follows the filler. An
    error is at a place in the text, in its row and its column. -/
theorem positions_truthful [CallStack] {text : Text} {read : Parse} (h : parse text = .ok read) :
    (∀ command ∈ Program.commands read.program, command.Located text)
    ∧ (∀ part ∈ Program.inOrder read.program, part.Located text)
    ∧ (Program.inOrder read.program).Pairwise Part.Before
    ∧ ∀ e, read.ending.error? = some e → e.position = Position.locate text e.position.offset := by
  obtain ⟨hcommands, hspread, herror⟩ := placed_of_parse h
  refine ⟨?_, hspread.located, hspread.ordered, herror⟩
  refine List.forall_mem_append.2 ⟨hcommands, fun command hmem => ?_⟩
  obtain ⟨part, hpart, hinside⟩ := List.mem_flatMap.1 hmem
  cases hspread.located part hpart with
  | word | string => cases hinside
  | filler _ hcontent => exact hcontent command hinside

open StandardStack

/-- A line feed is escaped in a word and another one stands in a string, in a filler of two
    commands with a comment between them and a filler inside; the last command is broken off by a
    parenthesis. -/
theorem positions_truthful_of_lines :
    let text := "a\\\nb (c \x7bx\ny\x7d; | z\n (d)) e\n f )".toList
    ∃ read, parse text = .ok read
      ∧ (Program.inOrder read.program).map Part.position?
        = [some ⟨0, 1, 0⟩, some ⟨5, 2, 2⟩, some ⟨6, 2, 3⟩, some ⟨8, 2, 5⟩, some ⟨20, 4, 1⟩,
          some ⟨21, 4, 2⟩, some ⟨25, 4, 6⟩, some ⟨28, 5, 1⟩]
      ∧ read.ending.error?.map SyntaxError.position = some ⟨30, 5, 3⟩
      ∧ (∀ part ∈ Program.inOrder read.program, part.Located text)
      ∧ (Program.inOrder read.program).Pairwise Part.Before := by
  intro text
  have hlook : (parse text).toOption.map (fun read =>
      ((Program.inOrder read.program).map Part.position?,
        read.ending.error?.map SyntaxError.position))
      = some ([some ⟨0, 1, 0⟩, some ⟨5, 2, 2⟩, some ⟨6, 2, 3⟩, some ⟨8, 2, 5⟩, some ⟨20, 4, 1⟩,
          some ⟨21, 4, 2⟩, some ⟨25, 4, 6⟩, some ⟨28, 5, 1⟩], some ⟨30, 5, 3⟩) := by
    decide +kernel
  obtain ⟨read, hread, hseen⟩ := except_eq_ok_of_map hlook
  obtain ⟨hplaces, herror⟩ := Prod.mk.inj hseen
  obtain ⟨-, hlocated, hordered, -⟩ := positions_truthful hread
  exact ⟨read, hread, hplaces, herror, hlocated, hordered⟩

end Phrasebook
