import Phrasebook.Position

/-! # Cursors

A cursor is a place in a text together with all that lies ahead of it.

* `Cursor.atStart` — the cursor before a text.
* `Cursor.peek`, `Cursor.atEnd` — a look ahead.
* `Cursor.next` — one character further on.
* `Cursor.skipWhile` — behind the characters of a class.
-/

namespace Phrasebook

/-- A place in a text and the rest of the text from there. -/
structure Cursor where
  position : Position
  rest : Text
deriving DecidableEq, Repr

namespace Cursor

def atStart (text : Text) : Cursor := ⟨.start, text⟩

def peek (cursor : Cursor) : Option Char := cursor.rest.head?

def atEnd (cursor : Cursor) : Bool := cursor.rest.isEmpty

/-- The cursor behind the next character; at the end of the text it stays where it is. -/
def next (cursor : Cursor) : Cursor :=
  match cursor.rest with
  | [] => cursor
  | c :: rest => ⟨cursor.position.advance c, rest⟩

@[simp] theorem next_mk_cons (position : Position) (c : Char) (rest : Text) :
    next ⟨position, c :: rest⟩ = ⟨position.advance c, rest⟩ := rfl

theorem next_rest_of_cons {cursor : Cursor} {c : Char} {rest : Text} (h : cursor.rest = c :: rest) :
    cursor.next.rest = rest := by
  rw [next, h]

def skipWhile (p : Char → Bool) (cursor : Cursor) : Cursor :=
  ⟨cursor.position.advanceOver (cursor.rest.takeWhile p), cursor.rest.dropWhile p⟩

/-- The number of characters of the whole text, for a cursor that began at its start. -/
def textLength (cursor : Cursor) : Int := cursor.position.offset + cursor.rest.length

def describe (cursor : Cursor) : Text :=
  "<SourceStream at ".toList ++ cursor.position.describe ++ " of ".toList
    ++ Text.ofInt cursor.textLength ++ " chars>".toList

/-! ## Progress -/

theorem next_rest_length_lt {cursor : Cursor} (h : cursor.rest ≠ []) :
    cursor.next.rest.length < cursor.rest.length := by
  obtain ⟨position, rest⟩ := cursor
  cases rest with
  | nil => exact absurd rfl h
  | cons c rest => simp

theorem next_rest_length_le (cursor : Cursor) :
    cursor.next.rest.length ≤ cursor.rest.length := by
  obtain ⟨position, rest⟩ := cursor
  cases rest <;> simp [next]

theorem skipWhile_rest_length_le (p : Char → Bool) (cursor : Cursor) :
    (cursor.skipWhile p).rest.length ≤ cursor.rest.length :=
  (List.dropWhile_sublist p).length_le

end Cursor

end Phrasebook
