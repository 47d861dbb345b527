import Phrasebook.Text.Printable

/-! # Quoted texts

The form in which a text is shown inside a description: between quote marks, on one line, with
everything that could not be told apart on paper written as an escape.

* `Quoted.write` — the quoted form.
* `Quoted.mark` — which of the two quote marks is chosen.
* `Quoted.hex` — a number as lower-case hexadecimal digits of a fixed count.
-/

namespace Phrasebook.Quoted

/-- The lower-case hexadecimal digits of `n`, led by zeros up to `width` of them. -/
def hex (width n : Nat) : Text :=
  let digits := Nat.toDigits 16 n
  List.replicate (width - digits.length) '0' ++ digits

def single : Char := '\x27'

def double : Char := '\x22'

/-- The quote mark for a text: the single one, unless the text holds single quotes and no double
    quote. -/
def mark (text : Text) : Char :=
  if text.contains single && !text.contains double then double else single

/-- The escape of a character that shows nothing: the shortest form that has room for it. -/
def escape (c : Char) : Text :=
  if c.toNat < 0x100 then '\\' :: 'x' :: hex 2 c.toNat
  else if c.toNat < 0x10000 then '\\' :: 'u' :: hex 4 c.toNat
  else '\\' :: 'U' :: hex 8 c.toNat

def writeChar (quote c : Char) : Text :=
  if c = quote || c = '\\' then ['\\', c]
  else if c = '\n' then ['\\', 'n']
  else if c = '\r' then ['\\', 'r']
  else if c = '\t' then ['\\', 't']
  else if isPrintable c then [c]
  else escape c

def write (text : Text) : Text :=
  let quote := mark text
  quote :: text.flatMap (writeChar quote) ++ [quote]

end Phrasebook.Quoted
