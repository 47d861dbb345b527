import Phrasebook.Cursor
import Phrasebook.Mark
import Phrasebook.SyntaxError
import Phrasebook.Tree.Basic

/-! # Reading parts

The first half of a reader for programs by recursive descent. Each reading function takes a cursor
and gives back what it read and the cursor behind it; it fails at the first character that cannot
be read.

* `Reader.word`, `Reader.quoted` — the inside of words and of strings.
* `Reader.Level` — a reader for the programs inside fillers, which the readers here are built on.
* `Reader.filler`, `Reader.string`, `Reader.bareWord`, `Reader.part` — the parts of a command.

The readers go forward only. The lemmas `…_shorter` say so, one for each reading function; the
loops over parts and commands end because of them.
-/

namespace Phrasebook

inductive ParseFault where
  | malformed (error : SyntaxError)
  | tooDeep
deriving DecidableEq, Repr

namespace Reader

/-- What a reading function gives back: what it read and the cursor behind it, or a fault. -/
abbrev Step (α : Type) := Except ParseFault (α × Cursor)

def fault (cause : SyntaxError.Cause) (position : Position) : ParseFault :=
  .malformed ⟨cause, position, []⟩

def Step.cons {α : Type} (piece : α) : Step (List α) → Step (List α)
  | .ok (pieces, after) => .ok (piece :: pieces, after)
  | .error e => .error e

def mark? (cursor : Cursor) : Option Mark := cursor.peek.map Mark.of

/-! ## Words -/

/-- Reads on in a word. A backslash is dropped and the character behind it taken as it is; any
    other character that is not plain ends the word. -/
def word (here : Position) : Text → Step Text
  | [] => .ok ([], ⟨here, []⟩)
  | c :: rest =>
    match Mark.of c, rest with
    | .plain, rest => (word (here.advance c) rest).cons c
    | .escape, [] => .error (fault .escapeAtEndOfInput here)
    | .escape, d :: rest => (word ((here.advance c).advance d) rest).cons d
    | _, rest => .ok ([], ⟨here, c :: rest⟩)

/-! ## Strings -/

/-- Reads on in a string that was opened at `opening` and holds `nesting` open braces of its own.
    All is kept as it stands, backslashes too, so that the text can be read as a program again. -/
def quoted (opening : Position) (nesting : Nat) (here : Position) : Text → Step Text
  | [] => .error (fault .unclosedString opening)
  | c :: rest =>
    match Mark.of c, rest with
    | .escape, [] => .error (fault .escapeAtEndOfInput here)
    | .escape, d :: rest =>
      ((quoted opening nesting ((here.advance c).advance d) rest).cons d).cons c
    | .stringOpen, rest => (quoted opening (nesting + 1) (here.advance c) rest).cons c
    | .stringClose, rest =>
      match nesting with
      | 0 => .ok ([], ⟨here.advance c, rest⟩)
      | nesting + 1 => (quoted opening nesting (here.advance c) rest).cons c
    | _, rest => (quoted opening nesting (here.advance c) rest).cons c

/-! ## Readings of programs -/

inductive Stop where
  | endOfText
  /-- Before a closing parenthesis that the commands did not open. -/
  | closing (here : Cursor)
  | failed (fault : ParseFault)
deriving DecidableEq, Repr

/-- A sequence of commands as far as it could be read, and where that stopped. -/
structure Reading where
  commands : Program
  stop : Stop

namespace Reading

def cons (command : Command) (reading : Reading) : Reading :=
  { reading with commands := command :: reading.commands }

end Reading

/-- A reader for the program inside a filler. It never gives back more than it was given. -/
structure Level where
  read : Cursor → Reading
  closing_le : ∀ {cursor stop}, (read cursor).stop = .closing stop →
    stop.rest.length ≤ cursor.rest.length

/-! ## Parts -/

/-- Reads a filler, the cursor being at its opening parenthesis: the program inside, then the
    closing parenthesis. -/
def filler (level : Level) (cursor : Cursor) : Step Part :=
  match level.read cursor.next with
  | ⟨content, .closing stop⟩ => .ok (.filler content (some cursor.position), stop.next)
  | ⟨_, .endOfText⟩ => .error (fault .unclosedFiller cursor.position)
  | ⟨_, .failed e⟩ => .error e

def string (cursor : Cursor) : Step Part :=
  match quoted cursor.position 0 cursor.next.position cursor.next.rest with
  | .ok (text, after) => .ok (.string text (some cursor.position), after)
  | .error e => .error e

def bareWord (cursor : Cursor) : Step Part :=
  match word cursor.position cursor.rest with
  | .ok (text, after) => .ok (.word text (some cursor.position), after)
  | .error e => .error e

def part (level : Level) (cursor : Cursor) : Option (Step Part) :=
  match mark? cursor with
  | some .fillerOpen => some (filler level cursor)
  | some .stringOpen => some (string cursor)
  | some .plain | some .escape => some (bareWord cursor)
  | _ => none

/-! ## Progress within a command -/

theorem Step.cons_eq_ok {α : Type} {piece : α} {step : Step (List α)} {pieces : List α}
    {after : Cursor} (h : step.cons piece = .ok (pieces, after)) :
    ∃ rest, step = .ok (rest, after) ∧ pieces = piece :: rest := by
  match step with
  | .ok (rest, _) => simp only [Step.cons, Except.ok.injEq, Prod.mk.injEq] at h; simp [h]
  | .error _ => simp [Step.cons] at h

theorem word_le {here : Position} {text read : Text} {after : Cursor}
    (h : word here text = .ok (read, after)) : after.rest.length ≤ text.length := by
  fun_induction word here text generalizing read with
  | case1 => simp at h; simp [← h.2]
  | case2 here c rest _ ih =>
    obtain ⟨_, hr, _⟩ := Step.cons_eq_ok h
    exact Nat.le_succ_of_le (ih hr)
  | case3 => simp at h
  | case4 here c d rest _ ih =>
    obtain ⟨_, hr, _⟩ := Step.cons_eq_ok h
    exact Nat.le_succ_of_le (Nat.le_succ_of_le (ih hr))
  | case5 => simp at h; simp [← h.2]

/-- A word that begins with a plain character or a backslash takes that character at least. -/
theorem word_shorter {here : Position} {c : Char} {rest read : Text} {after : Cursor}
    (hc : Mark.of c = .plain ∨ Mark.of c = .escape)
    (h : word here (c :: rest) = .ok (read, after)) : after.rest.length < (c :: rest).length := by
  rcases hc with hc | hc
  · simp only [word, hc] at h
    obtain ⟨_, hr, _⟩ := Step.cons_eq_ok h
    exact Nat.lt_succ_of_le (word_le hr)
  · cases rest with
    | nil => simp [word, hc] at h
    | cons d rest =>
      simp only [word, hc] at h
      obtain ⟨_, hr, _⟩ := Step.cons_eq_ok h
      exact Nat.lt_succ_of_le (Nat.le_succ_of_le (word_le hr))

theorem quoted_le {opening here : Position} {nesting : Nat} {text read : Text} {after : Cursor}
    (h : quoted opening nesting here text = .ok (read, after)) :
    after.rest.length ≤ text.length := by
  fun_induction quoted opening nesting here text generalizing read with
  | case1 => simp at h
  | case2 => simp at h
  | case3 nesting here c d rest _ ih =>
    obtain ⟨_, hc, _⟩ := Step.cons_eq_ok h
    obtain ⟨_, hr, _⟩ := Step.cons_eq_ok hc
    exact Nat.le_succ_of_le (Nat.le_succ_of_le (ih hr))
  | case4 nesting here c rest _ ih =>
    obtain ⟨_, hr, _⟩ := Step.cons_eq_ok h
    exact Nat.le_succ_of_le (ih hr)
  | case5 here c rest _ => simp at h; simp [← h.2]
  | case6 here c rest _ nesting ih =>
    obtain ⟨_, hr, _⟩ := Step.cons_eq_ok h
    exact Nat.le_succ_of_le (ih hr)
  | case7 nesting here c rest _ _ _ _ ih =>
    obtain ⟨_, hr, _⟩ := Step.cons_eq_ok h
    exact Nat.le_succ_of_le (ih hr)

theorem rest_eq_of_mark? {cursor : Cursor} {mark : Mark} (h : mark? cursor = some mark) :
    ∃ c rest, cursor.rest = c :: rest ∧ Mark.of c = mark := by
  obtain ⟨position, rest⟩ := cursor
  cases rest with
  | nil => simp [mark?, Cursor.peek] at h
  | cons c rest => exact ⟨c, rest, rfl, by simpa [mark?, Cursor.peek] using h⟩

theorem next_shorter {cursor : Cursor} {mark : Mark} (h : mark? cursor = some mark) :
    cursor.next.rest.length < cursor.rest.length := by
  obtain ⟨c, rest, hr, _⟩ := rest_eq_of_mark? h
  exact Cursor.next_rest_length_lt (by simp [hr])

theorem filler_shorter {level : Level} {cursor : Cursor} {read : Part} {after : Cursor}
    (hm : mark? cursor = some .fillerOpen) (h : filler level cursor = .ok (read, after)) :
    after.rest.length < cursor.rest.length := by
  unfold filler at h
  split at h
  · next content stop hr =>
    have hle : stop.rest.length ≤ cursor.next.rest.length := level.closing_le (by rw [hr])
    have hnext := Cursor.next_rest_length_le stop
    have hlt := next_shorter hm
    simp only [Except.ok.injEq, Prod.mk.injEq] at h
    rw [← h.2]
    omega
  · simp at h
  · simp at h

theorem string_shorter {cursor : Cursor} {read : Part} {after : Cursor}
    (hm : mark? cursor = some .stringOpen) (h : string cursor = .ok (read, after)) :
    after.rest.length < cursor.rest.length := by
  unfold string at h
  split at h
  · next text stop hr =>
    have hle := quoted_le hr
    have hlt := next_shorter hm
    simp only [Except.ok.injEq, Prod.mk.injEq] at h
    rw [← h.2]
    omega
  · simp at h

theorem bareWord_shorter {cursor : Cursor} {mark : Mark} {read : Part} {after : Cursor}
    (hm : mark? cursor = some mark) (hw : mark = .plain ∨ mark = .escape)
    (h : bareWord cursor = .ok (read, after)) : after.rest.length < cursor.rest.length := by
  obtain ⟨c, rest, hrest, hc⟩ := rest_eq_of_mark? hm
  unfold bareWord at h
  split at h
  · next text stop hr =>
    rw [hrest] at hr ⊢
    simp only [Except.ok.injEq, Prod.mk.injEq] at h
    rw [← h.2]
    exact word_shorter (hc ▸ hw) hr
  · simp at h

/-- A part takes one character at least. -/
theorem part_shorter {level : Level} {cursor : Cursor} {read : Part} {after : Cursor}
    (h : part level cursor = some (.ok (read, after))) :
    after.rest.length < cursor.rest.length := by
  unfold part at h
  split at h
  · next hm => exact filler_shorter hm (by simpa using h)
  · next hm => exact string_shorter hm (by simpa using h)
  · next hm => exact bareWord_shorter hm (.inl rfl) (by simpa using h)
  · next hm => exact bareWord_shorter hm (.inr rfl) (by simpa using h)
  · simp at h

end Reader

end Phrasebook
