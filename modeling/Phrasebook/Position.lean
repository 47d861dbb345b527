import Phrasebook.Text.Basic

/-! # Positions in a text

* `Position` — an offset with the row and the column it lies in.
* `Position.locate` — the position of an offset, found by looking at the text before it.
* `Position.advance` — the position one character further on.
* `Position.compare` — positions are ordered, and told apart, by their offsets alone.

A reader keeps a position in step with the text by `advance`; `locate_append` says that both
ways give the same rows and columns.
-/

namespace Phrasebook

/-- A place in a text. Rows count from one and columns from zero; a column is the number of
    characters since the last line feed. Whoever embeds the language may make up positions of any
    kind, so the numbers are integers. -/
structure Position where
  offset : Int
  row : Int
  column : Int
deriving DecidableEq, Repr

namespace Position

def start : Position := ⟨0, 1, 0⟩

def advance (here : Position) (c : Char) : Position :=
  if c = '\n' then ⟨here.offset + 1, here.row + 1, 0⟩
  else ⟨here.offset + 1, here.row, here.column + 1⟩

/-- The position at the end of `head`, the part of a text that lies before it. -/
def after (head : Text) : Position :=
  ⟨head.length, head.count '\n' + 1, (Text.afterLast '\n' head).length⟩

/-- The position of an offset in a text. An offset outside the text is moved to its nearer end. -/
def locate (text : Text) (offset : Int) : Position := after (text.take offset.toNat)

/-- Positions are compared by their offsets; row and column take no part. -/
def compare (p q : Position) : Ordering := Ord.compare p.offset q.offset

def notAfter (p q : Position) : Bool := p.offset ≤ q.offset

/-- Positions in the order of their offsets; those with one offset keep their order. -/
def sort (positions : List Position) : List Position := positions.mergeSort notAfter

def describe (p : Position) : Text :=
  "Position(".toList ++ Text.ofInt p.offset ++ ", row=".toList ++ Text.ofInt p.row
    ++ ", col=".toList ++ Text.ofInt p.column ++ [')']

/-! ## Keeping in step -/

@[simp] theorem after_nil : after [] = start := rfl

/-- Advancing over a character and looking back at the text read so far agree. -/
theorem after_append_singleton (head : Text) (c : Char) :
    after (head ++ [c]) = (after head).advance c := by
  by_cases h : c = '\n'
  · subst h
    simp [after, advance, Text.afterLast, List.count_append]
  · have h' : ('\n' == c) = false := by simpa using fun e => h e.symm
    simp [after, advance, Text.afterLast, List.count_append, h]

/-- The position reached by advancing over all of `text` from `here`. -/
def advanceOver (here : Position) (text : Text) : Position := text.foldl advance here

@[simp] theorem advanceOver_nil (here : Position) : here.advanceOver [] = here := rfl

@[simp] theorem advanceOver_cons (here : Position) (c : Char) (text : Text) :
    here.advanceOver (c :: text) = (here.advance c).advanceOver text := rfl

theorem advanceOver_append (here : Position) (text more : Text) :
    here.advanceOver (text ++ more) = (here.advanceOver text).advanceOver more :=
  List.foldl_append

/-- Reading on from the end of `head` leads to the end of the longer text. -/
theorem after_append (head text : Text) : after (head ++ text) = (after head).advanceOver text := by
  induction text generalizing head with
  | nil => simp
  | cons c rest ih =>
    rw [advanceOver_cons, ← after_append_singleton, ← ih, List.append_assoc, List.singleton_append]

theorem locate_append (head rest : Text) :
    locate (head ++ rest) head.length = start.advanceOver head := by
  rw [locate, Int.toNat_natCast, List.take_left, ← after_nil, ← after_append, List.nil_append]

end Position

end Phrasebook
