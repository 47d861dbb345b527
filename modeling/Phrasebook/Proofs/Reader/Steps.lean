import Phrasebook.Tree.Parser

/-! # How the reader goes on

What the reader does with the next character, one equation for each of its loops and each kind of
character.

* `Mark.inWord`, `Mark.opensPart`, `EndsWord`, `EndsCommand` — what a text may go on with.
* `Reader.word_…`, `Reader.quoted_…` — the inside of words and of strings.
* `Reader.moreParts_…`, `Reader.command_…`, `Reader.program_…` — commands and programs.
* `parseWithin_eq_clean_iff`, `commands_of_parse` — whole texts.
-/

namespace Phrasebook

/-! ## What a text may go on with -/

namespace Mark

/-- Whether a character of a word, or the backslash before one, has the meaning. -/
def inWord : Mark → Bool
  | plain | escape => true
  | _ => false

theorem inWord_iff {mark : Mark} : mark.inWord = true ↔ mark = plain ∨ mark = escape := by
  cases mark <;> decide

/-- Whether a part may begin with a character of the meaning. -/
def opensPart : Mark → Bool
  | plain | escape | stringOpen | fillerOpen => true
  | _ => false

end Mark

/-- The text does not go on with a character of a word. -/
def EndsWord (text : Text) : Prop := ∀ c ∈ text.head?, (Mark.of c).inWord = false

theorem EndsWord.nil : EndsWord [] := by
  intro c hc
  cases hc

theorem exists_inWord_of_not_endsWord {text : Text} (h : ¬ EndsWord text) :
    ∃ c rest, text = c :: rest ∧ (Mark.of c).inWord = true := by
  cases text with
  | nil => exact absurd EndsWord.nil h
  | cons c rest =>
    cases hw : (Mark.of c).inWord with
    | true => exact ⟨c, rest, rfl, hw⟩
    | false =>
      refine absurd (fun d hd => ?_) h
      cases hd
      exact hw

/-- A command ends here: behind white space comes the end of the text or a character that can
    neither begin a part nor be misplaced. -/
inductive EndsCommand : Text → Prop where
  | nil : EndsCommand []
  | mark {c : Char} {rest : Text} :
      Mark.of c = .terminator ∨ Mark.of c = .comment ∨ Mark.of c = .fillerClose →
      EndsCommand (c :: rest)
  | blank {c : Char} {rest : Text} : Mark.of c = .blank → EndsCommand rest → EndsCommand (c :: rest)

theorem EndsCommand.endsWord {rest : Text} (h : EndsCommand rest) : EndsWord rest := by
  intro c hc
  cases h with
  | nil => simp at hc
  | @mark d rest hm =>
    obtain rfl : d = c := by simpa using hc
    rcases hm with hm | hm | hm <;> rw [hm] <;> rfl
  | @blank d rest hm _ =>
    obtain rfl : d = c := by simpa using hc
    rw [hm]
    rfl

namespace Reader

variable {level : Level}

theorem mark?_cons (here : Position) (c : Char) (rest : Text) :
    mark? ⟨here, c :: rest⟩ = some (Mark.of c) := rfl

theorem rest_ne_nil_of_mark? {cursor : Cursor} {mark : Mark} (h : mark? cursor = some mark) :
    cursor.rest ≠ [] := by
  obtain ⟨c, rest, hrest, -⟩ := rest_eq_of_mark? h
  rw [hrest]
  exact List.cons_ne_nil c rest

theorem rest_eq_nil_of_mark? {cursor : Cursor} (hm : mark? cursor = none) : cursor.rest = [] := by
  obtain ⟨here, text⟩ := cursor
  cases text with
  | nil => rfl
  | cons c rest => cases hm

theorem peek_eq_of_mark? {cursor : Cursor} {mark : Mark} {d : Char} (hm : mark? cursor = some mark)
    (hd : mark.char? = some d) : cursor.peek = some d := by
  obtain ⟨here, text⟩ := cursor
  obtain ⟨c, rest, rfl, hc⟩ := rest_eq_of_mark? hm
  rw [(Mark.of_eq_iff hd).1 hc]
  rfl

theorem mark?_of_mem_peek {cursor : Cursor} {c : Char} (h : c ∈ cursor.peek) :
    mark? cursor = some (Mark.of c) := by
  rw [mark?, Option.mem_def.1 h]
  rfl

/-- A step that gives back something made of what was read. -/
def Step.map {α β : Type} (f : α → β) : Step α → Step β
  | .ok (read, after) => .ok (f read, after)
  | .error e => .error e

theorem Step.map_eq_ok {α β : Type} {f : α → β} {step : Step α} {read : β} {after : Cursor}
    (h : step.map f = .ok (read, after)) : ∃ inner, step = .ok (inner, after) ∧ read = f inner := by
  match step with
  | .ok (inner, _) =>
    cases h
    exact ⟨inner, rfl, rfl⟩
  | .error _ => cases h

theorem Step.cons_eq_error {α : Type} {piece : α} {step : Step (List α)} {fault : ParseFault}
    (h : step.cons piece = .error fault) : step = .error fault := by
  match step with
  | .ok (_, _) => cases h
  | .error _ => exact h

theorem Step.map_eq_error {α β : Type} {f : α → β} {step : Step α} {fault : ParseFault}
    (h : step.map f = .error fault) : step = .error fault := by
  match step with
  | .ok (_, _) => cases h
  | .error _ =>
    cases h
    rfl

theorem Step.cons_eq_map {α : Type} (piece : α) (step : Step (List α)) :
    step.cons piece = step.map (piece :: ·) := by
  cases step <;> rfl

/-! ## Words and strings -/

/-- A backslash is the last of the text or stands before a character. -/
theorem ne_escape {c : Char} {rest : Text} (hlast : Mark.of c = .escape → rest = [] → False)
    (hmore : ∀ d tail, Mark.of c = .escape → rest = d :: tail → False) : Mark.of c ≠ .escape := by
  intro hm
  cases rest with
  | nil => exact hlast hm rfl
  | cons d tail => exact hmore d tail hm rfl

theorem word_of_endsWord {rest : Text} (h : EndsWord rest) (here : Position) :
    word here rest = .ok ([], ⟨here, rest⟩) := by
  cases rest with
  | nil => rfl
  | cons c rest =>
    have hc := h c rfl
    cases hm : Mark.of c <;> simp_all [word, Mark.inWord]

/-- A word that begins with a character of a word is not empty. -/
theorem word_ne_nil {here : Position} {c : Char} {rest read : Text} {after : Cursor}
    (hw : (Mark.of c).inWord = true) (h : word here (c :: rest) = .ok (read, after)) :
    read ≠ [] := by
  rcases Mark.inWord_iff.1 hw with hm | hm
  · simp only [word, hm] at h
    obtain ⟨_, -, rfl⟩ := Step.cons_eq_ok h
    exact List.cons_ne_nil _ _
  · cases rest with
    | nil => simp [word, hm] at h
    | cons d rest =>
      simp only [word, hm] at h
      obtain ⟨_, -, rfl⟩ := Step.cons_eq_ok h
      exact List.cons_ne_nil _ _

/-- In a string most characters mean nothing. -/
theorem quoted_cons {c : Char} (he : Mark.of c ≠ .escape) (ho : Mark.of c ≠ .stringOpen)
    (hc : Mark.of c ≠ .stringClose) (opening here : Position) (nesting : Nat) (rest : Text) :
    quoted opening nesting here (c :: rest)
      = (quoted opening nesting (here.advance c) rest).cons c := by
  cases hm : Mark.of c <;> simp_all [quoted]

theorem string_eq_map (cursor : Cursor) :
    string cursor = (quoted cursor.position 0 cursor.next.position cursor.next.rest).map
      fun text => .string text (some cursor.position) := by
  rw [string]
  cases quoted cursor.position 0 cursor.next.position cursor.next.rest <;> rfl

theorem bareWord_eq_map (cursor : Cursor) :
    bareWord cursor = (word cursor.position cursor.rest).map
      fun text => .word text (some cursor.position) := by
  rw [bareWord]
  cases word cursor.position cursor.rest <;> rfl

theorem exists_text_of_bareWord {cursor after : Cursor} {mark : Mark} {read : Part}
    (hm : mark? cursor = some mark) (hw : mark.inWord = true)
    (h : bareWord cursor = .ok (read, after)) :
    ∃ text, text ≠ [] ∧ read = .word text (some cursor.position) := by
  obtain ⟨here, text⟩ := cursor
  obtain ⟨c, rest, rfl, rfl⟩ := rest_eq_of_mark? hm
  rw [bareWord_eq_map] at h
  obtain ⟨text, hword, rfl⟩ := Step.map_eq_ok h
  exact ⟨text, word_ne_nil hw hword, rfl⟩

/-! ## Commands -/

/-- Parts begin with the characters that open them and with no other. -/
theorem part_eq_none_iff {here : Position} {c : Char} {rest : Text} :
    part level ⟨here, c :: rest⟩ = none ↔ (Mark.of c).opensPart = false := by
  rw [part, mark?_cons]
  cases Mark.of c <;> simp [Mark.opensPart]

theorem part_eq_none {c : Char} {mark : Mark} (hm : Mark.of c = mark) (ho : mark.opensPart = false)
    (here : Position) (rest : Text) : part level ⟨here, c :: rest⟩ = none :=
  part_eq_none_iff.2 (hm ▸ ho)

theorem part_eq_none_of_mark? {cursor : Cursor} {mark : Mark} (hm : mark? cursor = some mark)
    (ho : mark.opensPart = false) : part level cursor = none := by
  obtain ⟨here, text⟩ := cursor
  obtain ⟨c, rest, rfl, hc⟩ := rest_eq_of_mark? hm
  exact part_eq_none hc ho here rest

theorem exists_part {cursor : Cursor} {mark : Mark} (hm : mark? cursor = some mark)
    (ho : mark.opensPart = true) :
    ∃ step, part level cursor = some step := by
  rw [part, hm]
  cases mark with
  | plain | escape | stringOpen | fillerOpen => exact ⟨_, rfl⟩
  | terminator | blank | comment | fillerClose | stringClose => cases ho

theorem command_eq_none_iff {cursor : Cursor} :
    command level cursor = none ↔ part level cursor = none := by
  rw [command]
  cases hp : part level cursor with
  | none => simp
  | some step =>
    cases step with
    | error e => simp
    | ok read =>
      obtain ⟨first, after⟩ := read
      cases hm : moreParts level after <;> simp [hm]

/-- Where no part begins the next character alone says how to go on. -/
theorem moreParts_of_part_eq_none {cursor : Cursor} (h : part level cursor = none) :
    moreParts level cursor =
      match mark? cursor with
      | some .blank => moreParts level cursor.next
      | some .terminator => .ok ([], cursor.next)
      | some .stringClose => .error (fault .unexpectedStringClosure cursor.position)
      | _ => .ok ([], cursor) := by
  rw [moreParts]
  split
  · next hc => rw [h] at hc; cases hc
  · next hc => rw [h] at hc; cases hc
  · split <;> simp_all

theorem moreParts_of_part_eq_some {cursor after : Cursor} {read : Part}
    (h : part level cursor = some (.ok (read, after))) :
    moreParts level cursor = (moreParts level after).cons read := by
  rw [moreParts]
  split
  · next hc => rw [h] at hc; cases hc; rfl
  · next hc => rw [h] at hc; cases hc
  · next hc => rw [h] at hc; cases hc

theorem moreParts_of_part_eq_error {cursor : Cursor} {fault : ParseFault}
    (h : part level cursor = some (.error fault)) : moreParts level cursor = .error fault := by
  rw [moreParts]
  split
  · next hc => rw [h] at hc; cases hc
  · next hc => rw [h] at hc; cases hc; rfl
  · next hc => rw [h] at hc; cases hc

theorem moreParts_of_rest_eq_nil {cursor : Cursor} (h : cursor.rest = []) :
    moreParts level cursor = .ok ([], cursor) := by
  obtain ⟨here, text⟩ := cursor
  obtain rfl : text = [] := h
  exact moreParts_of_part_eq_none rfl

/-- Parts begin where they are read. -/
theorem part_position? {cursor after : Cursor} {read : Part}
    (h : part level cursor = some (.ok (read, after))) :
    read.position? = some cursor.position := by
  rw [part] at h
  split at h
  · rw [Option.some.injEq, filler] at h
    split at h
    · cases h
      rfl
    · cases h
    · cases h
  · rw [Option.some.injEq, string_eq_map] at h
    obtain ⟨text, -, rfl⟩ := Step.map_eq_ok h
    rfl
  · rw [Option.some.injEq, bareWord_eq_map] at h
    obtain ⟨text, -, rfl⟩ := Step.map_eq_ok h
    rfl
  · rw [Option.some.injEq, bareWord_eq_map] at h
    obtain ⟨text, -, rfl⟩ := Step.map_eq_ok h
    rfl
  · cases h

/-- Where a part begins, a command begins too, and its parts are all that are read from there. -/
theorem command_of_part_eq_some {cursor : Cursor} {step : Step Part}
    (h : part level cursor = some step) :
    command level cursor
      = some ((moreParts level cursor).map fun parts => .mk parts (some cursor.position)) := by
  rw [command, h]
  match step with
  | .ok (first, after) =>
    rw [moreParts_of_part_eq_some h, ← part_position? h]
    cases hs : moreParts level after with
    | ok read =>
      simp only [hs]
      rfl
    | error fault =>
      simp only [hs]
      rfl
  | .error fault =>
    rw [moreParts_of_part_eq_error h]
    rfl

/-- The parts that are read where a part opens begin with that part. -/
theorem exists_first_of_moreParts {cursor after : Cursor} {step : Step Part} {parts : List Part}
    (hp : part level cursor = some step) (h : moreParts level cursor = .ok (parts, after)) :
    ∃ first later, parts = first :: later ∧ first.position? = some cursor.position := by
  match step with
  | .ok (first, behind) =>
    rw [moreParts_of_part_eq_some hp] at h
    obtain ⟨later, -, rfl⟩ := Step.cons_eq_ok h
    exact ⟨first, later, rfl, part_position? hp⟩
  | .error fault =>
    rw [moreParts_of_part_eq_error hp] at h
    cases h

theorem parts_ne_nil_of_command {cursor after : Cursor} {read : Command}
    (h : command level cursor = some (.ok (read, after))) : read.parts ≠ [] := by
  rw [command] at h
  split at h
  · split at h <;> cases h
    exact List.cons_ne_nil _ _
  · cases h
  · cases h

/-! ## Programs -/

/-- Where no command begins the next character alone says how to go on. -/
theorem program_of_command_eq_none {cursor : Cursor} (h : command level cursor = none) :
    program level cursor =
      match mark? cursor with
      | none => ⟨[], .endOfText⟩
      | some .fillerClose => ⟨[], .closing cursor⟩
      | some .stringClose => ⟨[], .failed (fault .unexpectedStringClosure cursor.position)⟩
      | some .comment => program level (skipComment cursor)
      | some _ => program level cursor.next := by
  rw [program]
  split
  · next hc => rw [h] at hc; cases hc
  · next hc => rw [h] at hc; cases hc
  · split <;> simp_all

/-- Of the characters that begin no command, all are passed over but those that end the commands,
    are misplaced or open a comment. -/
theorem skips_of_command_eq_none {cursor : Cursor} {mark : Mark}
    (hc : command level cursor = none) (hm : mark? cursor = some mark)
    (hclose : mark ≠ .fillerClose) (hstring : mark ≠ .stringClose) (hcomment : mark ≠ .comment) :
    mark = .blank ∨ mark = .terminator := by
  obtain ⟨here, text⟩ := cursor
  obtain ⟨c, rest, rfl, rfl⟩ := rest_eq_of_mark? hm
  have ho := part_eq_none_iff.1 (command_eq_none_iff.1 hc)
  cases hmark : Mark.of c <;> simp_all [Mark.opensPart]

theorem program_of_command_eq_some {cursor after : Cursor} {read : Command}
    (h : command level cursor = some (.ok (read, after))) :
    program level cursor = (program level after).cons read := by
  rw [program]
  split
  · next hc => rw [h] at hc; cases hc; rfl
  · next hc => rw [h] at hc; cases hc
  · next hc => rw [h] at hc; cases hc

theorem program_of_command_eq_error {cursor : Cursor} {fault : ParseFault}
    (h : command level cursor = some (.error fault)) :
    program level cursor = ⟨[], .failed fault⟩ := by
  rw [program]
  split
  · next hc => rw [h] at hc; cases hc
  · next hc => rw [h] at hc; cases hc; rfl
  · next hc => rw [h] at hc; cases hc

/-- The program inside a filler is read one level below. -/
theorem atLevel_succ_read (n : Nat) (cursor : Cursor) :
    (atLevel (n + 1)).read cursor = program (atLevel n) cursor := rfl

/-- A whole text is read below one level, its own. -/
theorem read_atStart {levels : Nat} (h : 0 < levels) (text : Text) :
    (atLevel levels).read (.atStart text) = program (atLevel (levels - 1)) ⟨.start, text⟩ := by
  cases levels with
  | zero => exact absurd h (Nat.lt_irrefl 0)
  | succ levels => rfl

theorem program_nil (here : Position) : program level ⟨here, []⟩ = ⟨[], .endOfText⟩ :=
  program_of_command_eq_none rfl

theorem program_of_rest_eq_nil {cursor : Cursor} (h : cursor.rest = []) :
    program level cursor = ⟨[], .endOfText⟩ := by
  obtain ⟨here, text⟩ := cursor
  obtain rfl : text = [] := h
  exact program_nil here

theorem program_skip {c : Char} (hm : Mark.of c = .blank ∨ Mark.of c = .terminator)
    (here : Position) (rest : Text) :
    program level ⟨here, c :: rest⟩ = program level ⟨here.advance c, rest⟩ := by
  have hp : part level ⟨here, c :: rest⟩ = none := by
    rcases hm with hm | hm <;> exact part_eq_none hm rfl here rest
  rw [program_of_command_eq_none (command_eq_none_iff.2 hp), mark?_cons]
  rcases hm with hm | hm <;> rw [hm] <;> rfl

/-- A comment ends before the next line feed, or with the text. -/
theorem skipComment_split (here : Position) (text : Text) :
    ∃ comment, text = comment ++ (skipComment ⟨here, '|' :: text⟩).rest ∧ '\n' ∉ comment
      ∧ (skipComment ⟨here, '|' :: text⟩).position = here.advanceOver ('|' :: comment)
      ∧ ∀ c ∈ (skipComment ⟨here, '|' :: text⟩).rest.head?, c = '\n' := by
  refine ⟨text.takeWhile (· != '\n'), List.takeWhile_append_dropWhile.symm, ?_, rfl, ?_⟩
  · intro hmem
    have hall := List.all_eq_true.1 List.all_takeWhile _ hmem
    simp at hall
  · intro c hc
    have hhead := List.head?_dropWhile_not (· != '\n') text
    have hc' : (text.dropWhile (· != '\n')).head? = some c := hc
    rw [hc'] at hhead
    simpa using hhead

/-- A comment is passed over up to the end of its line. -/
theorem program_comment {comment rest : Text} (hc : '\n' ∉ comment)
    (hr : ∀ c ∈ rest.head?, c = '\n') (here : Position) :
    program level ⟨here, '|' :: comment ++ rest⟩
      = program level ⟨here.advanceOver ('|' :: comment), rest⟩ := by
  have hm : Mark.of '|' = .comment := Mark.of_char rfl
  have hp : part level ⟨here, '|' :: (comment ++ rest)⟩ = none := part_eq_none hm rfl here _
  rw [List.cons_append, program_of_command_eq_none (command_eq_none_iff.2 hp), mark?_cons, hm]
  have hall : ∀ c ∈ comment, (c != '\n') = true := by
    intro c hm
    simp only [bne_iff_ne]
    rintro rfl
    exact hc hm
  -- What is behind the comment is empty or begins with a line feed, and none of it is skipped.
  have htake : rest.takeWhile (· != '\n') = [] := by
    cases rest with
    | nil => rfl
    | cons c rest => simp [hr c rfl]
  have hdrop : rest.dropWhile (· != '\n') = rest := by
    cases rest with
    | nil => rfl
    | cons c rest => simp [hr c rfl]
  show program level (skipComment _) = _
  congr 1
  simp [skipComment, Cursor.skipWhile, List.takeWhile_append_of_pos hall,
    List.dropWhile_append_of_pos hall, htake, hdrop]

end Reader

/-- Even a text without fillers needs a level. -/
theorem levels_pos_of_parse {levels : Nat} {text : Text} {read : Parse}
    (h : parseWithin levels text = .ok read) : 0 < levels := by
  cases levels with
  | zero => cases h
  | succ levels => exact Nat.succ_pos levels

/-- A text is a program if its commands end where it ends. -/
theorem parseWithin_eq_clean_iff {levels : Nat} (hl : 0 < levels) {text : Text}
    {program : Program} :
    parseWithin levels text = .ok ⟨program, .clean⟩ ↔
      Reader.program (Reader.atLevel (levels - 1)) ⟨.start, text⟩ = ⟨program, .endOfText⟩ := by
  rw [parseWithin, Reader.read_atStart hl]
  generalize Reader.program (Reader.atLevel (levels - 1)) ⟨.start, text⟩ = reading
  obtain ⟨commands, stop⟩ := reading
  cases stop with
  | endOfText => simp
  | closing stop => simp [Ending.ofError_ne_clean]
  | failed fault =>
    cases fault with
    | malformed e => simp [Ending.ofError_ne_clean]
    | tooDeep => simp

theorem Ending.ofError_eq_fatal_iff {error e : SyntaxError} :
    Ending.ofError error = .fatal e ↔ error = e ∧ e.needsMoreInput = false := by
  rw [Ending.ofError]
  split
  · next hmore =>
    simp only [reduceCtorEq, false_iff, not_and]
    rintro rfl
    simp [hmore]
  · next hmore =>
    simp only [Ending.fatal.injEq, iff_self_and]
    rintro rfl
    simpa using hmore

theorem Ending.ofError_eq_needsMore_iff {error e : SyntaxError} :
    Ending.ofError error = .needsMore e ↔ error = e ∧ e.needsMoreInput = true := by
  rw [Ending.ofError]
  split
  · next hmore =>
    simp only [Ending.needsMore.injEq, iff_self_and]
    rintro rfl
    exact hmore
  · next hmore =>
    simp only [reduceCtorEq, false_iff, not_and]
    rintro rfl
    exact hmore

/-- The commands of a text are those that its reader gathered before it stopped. -/
theorem commands_of_parse {levels : Nat} {text : Text} {read : Parse}
    (h : parseWithin levels text = .ok read) :
    ((Reader.atLevel levels).read (.atStart text)).commands = read.program := by
  rw [parseWithin] at h
  split at h
  · next hr =>
    cases h
    rw [hr]
  · next hr =>
    cases h
    rw [hr]
  · next hr =>
    cases h
    rw [hr]
  · cases h

/-- Readings cannot be compared as they are, but what can be seen of them can. -/
theorem except_eq_ok_of_map {ε α β : Type} {result : Except ε α} {look : α → β} {seen : β}
    (h : result.toOption.map look = some seen) :
    ∃ value, result = .ok value ∧ look value = seen := by
  cases result with
  | error e => cases h
  | ok value => exact ⟨value, rfl, Option.some.inj h⟩

theorem except_bind_eq_ok {ε α β : Type} {step : Except ε α} {next : α → Except ε β} {value : β}
    (h : step >>= next = .ok value) : ∃ middle, step = .ok middle ∧ next middle = .ok value := by
  cases step with
  | error e => cases h
  | ok middle => exact ⟨middle, rfl, h⟩

end Phrasebook
