/-! # Text

A text is a sequence of code points. All of the library reads and writes texts; `String` appears
only where a program meets the outside world.

* `Text.ofNat`, `Text.ofInt` — decimal numerals.
* `Text.afterLast`, `Text.cutLines`, `Text.unifyNewlines` — lines.
-/

namespace Phrasebook

/-- A text: the list of its code points, in reading order. -/
abbrev Text := List Char

namespace Text

/-! ## Numerals -/

def ofNat (n : Nat) : Text := Nat.toDigits 10 n

/-- The decimal numeral of an integer: a minus sign stands before a negative one. -/
def ofInt : Int → Text
  | .ofNat n => ofNat n
  | .negSucc n => '-' :: ofNat (n + 1)

/-! ## Line breaks -/

/-- The characters of `text` after the last `mark`, or all of them if there is none. -/
def afterLast (mark : Char) (text : Text) : Text :=
  (text.reverse.takeWhile (· ≠ mark)).reverse

/-- The lines of a text as it is read from outside: a carriage return, alone or before a line
    feed, stands for a line feed. -/
def unifyNewlines : Text → Text
  | [] => []
  | '\r' :: '\n' :: rest => '\n' :: unifyNewlines rest
  | '\r' :: rest => '\n' :: unifyNewlines rest
  | c :: rest => c :: unifyNewlines rest

/-- The text cut after every line feed. Joined without a separator the pieces give the text, and
    only the last one may lack its line feed; the empty text has no pieces. -/
def cutLines : Text → List Text
  | [] => []
  | '\n' :: rest => ['\n'] :: cutLines rest
  | c :: rest =>
    match cutLines rest with
    | [] => [[c]]
    | line :: lines => (c :: line) :: lines

end Text

end Phrasebook
