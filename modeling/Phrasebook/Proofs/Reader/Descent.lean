import Phrasebook.Proofs.Reader.Steps

/-! # A descent that need not end

The reader of programs again, as calls and loops that share one cursor. A loop looks at the next
character and leaves it to what it calls to take that character, without being told that it was
taken. Nothing here ends by its form, so that it can be said that it does end: each loop is gone
through a given number of times at most, and if that is not enough nothing comes of it.

* `Descent.Outcome`, `Descent.Pass`, `Descent.loop` — calls, and loops that may go on for ever.
* `Descent.word`, `Descent.string`, `Descent.comment`, `Descent.filler` — what may stand in a
  command, and between commands.
* `Descent.command`, `Descent.program`, `Descent.nested` — commands, programs and the programs
  inside fillers.
* `Descent.wordPass_cons`, `Descent.stringPass_cons`, `Descent.commandPass_eq`,
  `Descent.programPass_eq` — every loop sorts the characters by tests of its own, and what it does
  depends on their marks.
-/

namespace Phrasebook

open Reader

namespace Descent

/-! ## Calls and loops -/

/-- How a call ended, and where it left the cursor. -/
inductive Outcome (α : Type) where
  | returned (value : α) (cursor : Cursor)
  | raised (fault : ParseFault) (cursor : Cursor)

namespace Outcome

variable {α β : Type}

def cursor : Outcome α → Cursor
  | returned _ cursor => cursor
  | raised _ cursor => cursor

def map (f : α → β) : Outcome α → Outcome β
  | returned value cursor => returned (f value) cursor
  | raised fault cursor => raised fault cursor

/-- What can be seen of the outcome by those who do not share the cursor. -/
def step : Outcome α → Step α
  | returned value cursor => .ok (value, cursor)
  | raised fault _ => .error fault

end Outcome

/-- One pass through a loop: it puts pieces on the list that the loop gathers and goes on, or it
    leaves the loop. -/
inductive Pass (α σ : Type) where
  | again (pieces : List α) (next : σ)
  | leave (left : Outcome Unit)

/-- The pass that ends with a call. A call may return without a piece. -/
def Pass.afterCall {α : Type} : Outcome (Option α) → Pass α Cursor
  | .returned piece? after => .again piece?.toList after
  | .raised fault after => .leave (.raised fault after)

/-- A loop, gone through `fuel` times at most: the pieces that it gathered and how it was left. -/
def loop {α σ : Type} (pass : σ → Option (Pass α σ)) : Nat → σ → Option (List α × Outcome Unit)
  | 0, _ => none
  | fuel + 1, state =>
    match pass state with
    | some (.again pieces next) =>
      (loop pass fuel next).map fun (later, left) => (pieces ++ later, left)
    | some (.leave left) => some ([], left)
    | none => none

/-! ## Words, strings and comments -/

def commandSeparators : List Char := [';', '\n']

/-- The characters besides separators that end a word without being part of it. -/
def wordBreaks : List Char := ['(', ')', '{', '}', '|', ';', '\n']

def wordPass (here : Cursor) : Pass Char Cursor :=
  match here.peek with
  | none => .leave (.returned () here)
  | some c =>
    if c ∈ wordBreaks ∨ isWordSeparator c then .leave (.returned () here)
    else if c = '\\' then
      -- The backslash has been passed when it turns out that nothing stands behind it.
      match here.next.peek with
      | none => .leave (.raised (fault .escapeAtEndOfInput here.position) here.next)
      | some escaped => .again [escaped] here.next.next
    else .again [c] here.next

/-- A word, unless no character is taken. -/
def word (fuel : Nat) (cursor : Cursor) : Option (Outcome (Option Part)) :=
  (loop (fun here => some (wordPass here)) fuel cursor).map fun (chars, left) =>
    left.map fun () => (Part.word? chars (some cursor.position)).toOption

/-- The state of the loop is the number of braces of the string's own that are open, and the
    cursor. -/
def stringPass (opening : Position) : Nat × Cursor → Pass Char (Nat × Cursor)
  | (nesting, here) =>
    match here.peek with
    | none => .leave (.raised (fault .unclosedString opening) here)
    | some c =>
      if c = '\\' then
        match here.next.peek with
        | none => .leave (.raised (fault .escapeAtEndOfInput here.position) here.next)
        | some escaped => .again [c, escaped] (nesting, here.next.next)
      else if c = '{' then .again [c] (nesting + 1, here.next)
      else if c = '}' then
        match nesting with
        | 0 => .leave (.returned () here.next)
        | nesting + 1 => .again [c] (nesting, here.next)
      else .again [c] (nesting, here.next)

/-- A string, the cursor being at its opening brace. -/
def string (fuel : Nat) (cursor : Cursor) : Option (Outcome Part) :=
  (loop (fun state => some (stringPass cursor.position state)) fuel (0, cursor.next)).map
    fun (chars, left) => left.map fun () => .string chars (some cursor.position)

def commentPass (here : Cursor) : Pass Char Cursor :=
  match here.peek with
  | none => .leave (.returned () here)
  | some c => if c = '\n' then .leave (.returned () here) else .again [] here.next

/-- A comment, the cursor being at its bar. -/
def comment (fuel : Nat) (cursor : Cursor) : Option (Outcome Unit) :=
  (loop (fun here => some (commentPass here)) fuel cursor).map Prod.snd

/-! ## Commands and programs -/

/-- What reads the program inside a filler. -/
abbrev Inside := Cursor → Option (List Command × Outcome Unit)

/-- A filler, the cursor being at its opening parenthesis. -/
def filler (inside : Inside) (cursor : Cursor) : Option (Outcome Part) :=
  match inside cursor.next with
  | some (content, .returned () stop) =>
    if stop.peek = some ')' then
      some (.returned (.filler content (some cursor.position)) stop.next)
    else some (.raised (fault .unclosedFiller cursor.position) stop)
  | some (_, .raised e stop) => some (.raised e stop)
  | none => none

def commandPass (inside : Inside) (fuel : Nat) (here : Cursor) : Option (Pass Part Cursor) :=
  match here.peek with
  | none => some (.leave (.returned () here))
  | some c =>
    if isWordSeparator c then some (.again [] here.next)
    else if c ∈ commandSeparators then some (.leave (.returned () here.next))
    else if c = ')' ∨ c = '|' then some (.leave (.returned () here))
    else if c = '}' then
      some (.leave (.raised (fault .unexpectedStringClosure here.position) here))
    else if c = '(' then (filler inside here).map fun call => .afterCall (call.map some)
    else if c = '{' then (string fuel here).map fun call => .afterCall (call.map some)
    else (word fuel here).map .afterCall

/-- A command, unless no part is read. -/
def command (inside : Inside) (fuel : Nat) (cursor : Cursor) :
    Option (Outcome (Option Command)) :=
  (loop (commandPass inside fuel) fuel cursor).map fun (parts, left) =>
    left.map fun () => (Command.ofParts? parts none).toOption

/-- In a filler a closing parenthesis is left to the filler, at the top it closes nothing. -/
def programPass (inside : Inside) (inFiller : Bool) (fuel : Nat) (here : Cursor) :
    Option (Pass Command Cursor) :=
  match here.peek with
  | none => some (.leave (.returned () here))
  | some c =>
    if c ∈ commandSeparators ∨ isWordSeparator c then some (.again [] here.next)
    else if c = '|' then (comment fuel here).map fun call => .afterCall (call.map fun () => none)
    else if c = ')' then
      if inFiller then some (.leave (.returned () here))
      else some (.leave (.raised (fault .unexpectedFillerClosure here.position) here))
    else if c = '}' then
      some (.leave (.raised (fault .unexpectedStringClosure here.position) here))
    -- If the command has no parts the loop goes on from where it left the cursor, be it here.
    else (command inside fuel here).map .afterCall

/-- What is gathered is kept when the loop fails. -/
def program (inside : Inside) (inFiller : Bool) (fuel : Nat) (cursor : Cursor) :
    Option (List Command × Outcome Unit) :=
  loop (programPass inside inFiller fuel) fuel cursor

/-- The program inside a filler, with fillers nested less than `levels` deep. -/
def nested (fuel : Nat) : (levels : Nat) → Inside
  | 0 => fun cursor => some ([], .raised .tooDeep cursor)
  | levels + 1 => program (nested fuel levels) true fuel

/-- The program that a whole text is, with fillers nested `levels` deep at most. -/
def whole (fuel levels : Nat) (text : Text) : Option (List Command × Outcome Unit) :=
  program (nested fuel levels) false fuel (.atStart text)

/-- What is told of a text, the commands having been gathered before the reading ended. -/
def Outcome.parse (commands : Program) : Outcome Unit → Except ParseFault Parse
  | returned () _ => .ok ⟨commands, .clean⟩
  | raised (.malformed e) _ => .ok ⟨commands, .ofError e⟩
  | raised .tooDeep _ => .error .tooDeep

/-! ## The tests of the loops -/

/-- The character passes none of the tests by which the loop over commands takes characters or
    leaves, so that it calls for a command. -/
def CallsCommand (c : Char) : Prop :=
  ¬ (c ∈ commandSeparators ∨ isWordSeparator c) ∧ c ≠ '|' ∧ c ≠ ')' ∧ c ≠ '}'

/-- The character passes none of the tests of the loop over parts, so that it calls for a word. -/
def CallsWord (c : Char) : Prop :=
  ¬ isWordSeparator c ∧ c ∉ commandSeparators ∧ ¬ (c = ')' ∨ c = '|') ∧ c ≠ '}' ∧ c ≠ '(' ∧ c ≠ '{'

theorem mem_commandSeparators {c : Char} : c ∈ commandSeparators ↔ Mark.of c = .terminator := by
  rw [Mark.of_eq_terminator]
  simp [commandSeparators, or_comm]

theorem isWordSeparator_iff {c : Char} : isWordSeparator c = true ↔ Mark.of c = .blank := by
  simp [isWordSeparator_eq]

theorem eq_char_iff (mark : Mark) {c d : Char} (h : mark.char? = some d) :
    c = d ↔ Mark.of c = mark :=
  (Mark.of_eq_iff h).symm

/-- A word ends at the characters that are left to other loops, and at no others. -/
theorem breaksWord_iff {c : Char} :
    c ∈ wordBreaks ∨ isWordSeparator c = true ↔ (Mark.of c).inWord = false := by
  simp only [wordBreaks, List.mem_cons, List.not_mem_nil, or_false, isWordSeparator_iff]
  grind [Mark.of, Mark.inWord]

/-- The loop over parts calls for a word exactly at the characters that a word takes. -/
theorem callsWord_iff {c : Char} : CallsWord c ↔ (Mark.of c).inWord = true := by
  simp only [CallsWord, isWordSeparator_iff, mem_commandSeparators,
    eq_char_iff .fillerClose rfl, eq_char_iff .comment rfl,
    eq_char_iff .stringClose rfl, eq_char_iff .fillerOpen rfl,
    eq_char_iff .stringOpen rfl, ne_eq]
  cases Mark.of c <;> decide

/-- The loop over commands calls for a command exactly at the characters that open a part. -/
theorem callsCommand_iff {c : Char} : CallsCommand c ↔ (Mark.of c).opensPart = true := by
  simp only [CallsCommand, isWordSeparator_iff, mem_commandSeparators,
    eq_char_iff .fillerClose rfl, eq_char_iff .comment rfl,
    eq_char_iff .stringClose rfl, ne_eq]
  cases Mark.of c <;> decide

theorem wordPass_of_endsWord {rest : Text} (h : EndsWord rest) (here : Position) :
    wordPass ⟨here, rest⟩ = .leave (.returned () ⟨here, rest⟩) := by
  cases rest with
  | nil => rfl
  | cons c rest => exact if_pos (breaksWord_iff.2 (h c rfl))

theorem wordPass_cons {c : Char} (hw : (Mark.of c).inWord = true) (here : Position) (rest : Text) :
    wordPass ⟨here, c :: rest⟩ =
      if Mark.of c = .escape then
        match rest with
        | [] => .leave (.raised (fault .escapeAtEndOfInput here) ⟨here.advance c, []⟩)
        | escaped :: rest => .again [escaped] ⟨(here.advance c).advance escaped, rest⟩
      else .again [c] ⟨here.advance c, rest⟩ := by
  have hbreaks : ¬ (c ∈ wordBreaks ∨ isWordSeparator c = true) := by
    rw [breaksWord_iff, hw]
    exact Bool.noConfusion
  simp only [wordPass, Cursor.peek, List.head?_cons, if_neg hbreaks,
    eq_char_iff .escape rfl]
  cases rest <;> rfl

theorem stringPass_cons (opening : Position) (nesting : Nat) (here : Position) (c : Char)
    (rest : Text) :
    stringPass opening (nesting, ⟨here, c :: rest⟩) =
      match Mark.of c, rest with
      | .escape, [] => .leave (.raised (fault .escapeAtEndOfInput here) ⟨here.advance c, []⟩)
      | .escape, escaped :: rest =>
        .again [c, escaped] (nesting, ⟨(here.advance c).advance escaped, rest⟩)
      | .stringOpen, rest => .again [c] (nesting + 1, ⟨here.advance c, rest⟩)
      | .stringClose, rest =>
        match nesting with
        | 0 => .leave (.returned () ⟨here.advance c, rest⟩)
        | nesting + 1 => .again [c] (nesting, ⟨here.advance c, rest⟩)
      | _, rest => .again [c] (nesting, ⟨here.advance c, rest⟩) := by
  simp only [stringPass, Cursor.peek, List.head?_cons, eq_char_iff .escape rfl,
    eq_char_iff .stringOpen rfl, eq_char_iff .stringClose rfl]
  cases Mark.of c <;> cases rest <;> cases nesting <;> rfl

theorem commentPass_cons (here : Position) (c : Char) (rest : Text) :
    commentPass ⟨here, c :: rest⟩ =
      if c = '\n' then .leave (.returned () ⟨here, c :: rest⟩)
      else .again [] ⟨here.advance c, rest⟩ := rfl

theorem commandPass_eq (inside : Inside) (fuel : Nat) (here : Cursor) :
    commandPass inside fuel here =
      match mark? here with
      | none | some .fillerClose | some .comment => some (.leave (.returned () here))
      | some .blank => some (.again [] here.next)
      | some .terminator => some (.leave (.returned () here.next))
      | some .stringClose =>
        some (.leave (.raised (fault .unexpectedStringClosure here.position) here))
      | some .fillerOpen => (filler inside here).map fun call => .afterCall (call.map some)
      | some .stringOpen => (string fuel here).map fun call => .afterCall (call.map some)
      | some .plain | some .escape => (word fuel here).map .afterCall := by
  rw [commandPass, mark?]
  cases here.peek with
  | none => rfl
  | some c =>
    simp only [Option.map_some, isWordSeparator_iff, mem_commandSeparators,
      eq_char_iff .fillerClose rfl, eq_char_iff .comment rfl,
      eq_char_iff .stringClose rfl, eq_char_iff .fillerOpen rfl,
      eq_char_iff .stringOpen rfl]
    cases Mark.of c <;> rfl

theorem programPass_eq (inside : Inside) (inFiller : Bool) (fuel : Nat) (here : Cursor) :
    programPass inside inFiller fuel here =
      match mark? here with
      | none => some (.leave (.returned () here))
      | some .terminator | some .blank => some (.again [] here.next)
      | some .comment => (comment fuel here).map fun call => .afterCall (call.map fun () => none)
      | some .fillerClose =>
        if inFiller then some (.leave (.returned () here))
        else some (.leave (.raised (fault .unexpectedFillerClosure here.position) here))
      | some .stringClose =>
        some (.leave (.raised (fault .unexpectedStringClosure here.position) here))
      | _ => (command inside fuel here).map .afterCall := by
  rw [programPass, mark?]
  cases here.peek with
  | none => rfl
  | some c =>
    simp only [Option.map_some, isWordSeparator_iff, mem_commandSeparators,
      eq_char_iff .fillerClose rfl, eq_char_iff .comment rfl,
      eq_char_iff .stringClose rfl]
    cases Mark.of c <;> rfl

end Descent

end Phrasebook
