import Phrasebook.Text.Blank

/-! # Marks

What a character means to the reader of programs. The reader, the printer and the notion of
balanced text all ask the same classification, so that they cannot disagree about a character.

* `Mark` — the nine meanings.
* `Mark.of` — the meaning of a character, and what characters have a given meaning.
* `isWordSeparator` — the blanks that separate the parts of one command.
-/

namespace Phrasebook

/-- What a character means outside strings and comments. -/
inductive Mark where
  /-- A line feed or a semicolon: ends a command. -/
  | terminator
  /-- Any other blank: separates the parts of a command. -/
  | blank
  /-- A bar: the rest of the line is a comment. -/
  | comment
  | fillerOpen
  | fillerClose
  | stringOpen
  | stringClose
  /-- A backslash: the next character stands for itself. -/
  | escape
  | plain
deriving DecidableEq, Repr

namespace Mark

/-- The meaning of a character. -/
def of (c : Char) : Mark :=
  if c = '\n' || c = ';' then terminator
  else if c = '(' then fillerOpen
  else if c = ')' then fillerClose
  else if c = '{' then stringOpen
  else if c = '}' then stringClose
  else if c = '|' then comment
  else if c = '\\' then escape
  else if isBlank c then blank
  else plain

/-- The character that alone has the meaning, if there is only one. -/
def char? : Mark → Option Char
  | comment => some '|'
  | fillerOpen => some '('
  | fillerClose => some ')'
  | stringOpen => some '{'
  | stringClose => some '}'
  | escape => some '\\'
  | terminator | blank | plain => none

end Mark

/-- Whether a character separates the parts of a command: a blank that does not end the line. -/
def isWordSeparator (c : Char) : Bool := c != '\n' && isBlank c

/-- The separators are the characters marked as blank. -/
theorem isWordSeparator_eq (c : Char) : isWordSeparator c = (Mark.of c == .blank) := by
  by_cases h : c ∈ ['\n', ';', '(', ')', '{', '}', '|', '\\']
  · simp only [List.mem_cons, List.not_mem_nil, or_false] at h
    rcases h with rfl | rfl | rfl | rfl | rfl | rfl | rfl | rfl <;> decide
  · simp only [List.mem_cons, List.not_mem_nil, or_false, not_or] at h
    cases hb : isBlank c <;> simp [isWordSeparator, Mark.of, h, hb]

/-! ## Characters by their meaning -/

namespace Mark

theorem of_eq_iff {mark : Mark} {c d : Char} (h : mark.char? = some d) : of c = mark ↔ c = d := by
  cases mark <;> simp only [char?, Option.some.injEq, reduceCtorEq] at h <;> subst h <;> grind [of]

theorem of_char {mark : Mark} {c : Char} (h : mark.char? = some c) : of c = mark :=
  (of_eq_iff h).2 rfl

theorem of_eq_terminator {c : Char} : of c = terminator ↔ c = '\n' ∨ c = ';' := by
  grind [of]

/-- A character is marked as blank if it is white space that does not end the line. -/
theorem of_eq_blank {c : Char} : of c = blank ↔ isBlank c = true ∧ c ≠ '\n' := by
  have h := isWordSeparator_eq c
  simp only [isWordSeparator] at h
  grind

/-- The plain characters are those that are neither white space nor punctuation. -/
theorem of_eq_plain {c : Char} :
    of c = plain ↔ c ∉ ['(', ')', '{', '}', '|', ';', '\\'] ∧ isBlank c = false := by
  have h := isBlank_lineFeed
  simp only [of]
  grind

end Mark

end Phrasebook
