import Phrasebook.Text.Blank

/-! # Integers and texts

An integer is read from decimal digits of any script, an optional sign before them, single
underscores between digits, and a margin of blanks around it all. One with very many digits is
neither read nor written.

* `digitValue?` — the value of a decimal digit.
* `Text.readInt?` — the integer that a text writes, if it writes one.
* `Text.Writable` — the integers that can be written.
-/

namespace Phrasebook

/-- The digit zero of every script that writes numbers in base ten; the digits one to nine follow
    it in order. -/
def zeroDigits : List Nat :=
  [0x0030, 0x0660, 0x06F0, 0x07C0, 0x0966, 0x09E6, 0x0A66, 0x0AE6, 0x0B66,
   0x0BE6, 0x0C66, 0x0CE6, 0x0D66, 0x0DE6, 0x0E50, 0x0ED0, 0x0F20, 0x1040,
   0x1090, 0x17E0, 0x1810, 0x1946, 0x19D0, 0x1A80, 0x1A90, 0x1B50, 0x1BB0,
   0x1C40, 0x1C50, 0xA620, 0xA8D0, 0xA900, 0xA9D0, 0xA9F0, 0xAA50, 0xABF0,
   0xFF10, 0x104A0, 0x10D30, 0x11066, 0x110F0, 0x11136, 0x111D0, 0x112F0,
   0x11450, 0x114D0, 0x11650, 0x116C0, 0x11730, 0x118E0, 0x11950, 0x11C50,
   0x11D50, 0x11DA0, 0x16A60, 0x16AC0, 0x16B50, 0x1D7CE, 0x1D7D8, 0x1D7E2,
   0x1D7EC, 0x1D7F6, 0x1E140, 0x1E2F0, 0x1E950, 0x1FBF0]

def digitValue? (c : Char) : Option Nat :=
  (zeroDigits.find? fun start => start ≤ c.toNat && c.toNat < start + 10).map (c.toNat - ·)

namespace Text

/-- Reads the digits that follow a digit, `total` being the number written so far. A single
    underscore may stand before a digit. -/
def readDigits? (total : Nat) : Text → Option Nat
  | [] => some total
  | '_' :: c :: rest => do readDigits? (total * 10 + (← digitValue? c)) rest
  | c :: rest => do readDigits? (total * 10 + (← digitValue? c)) rest

/-- The most digits that a number may be written with, zeros at its front included. It is not
    unfolded by itself, as powers of this height are not to be computed on the way. -/
@[irreducible] def digitLimit : Nat := 4300

/-- The first number that takes more digits than that. -/
def digitBound : Nat := Nat.pow 10 digitLimit

def readNat? : Text → Option Nat
  | [] => none
  | c :: rest =>
    if digitLimit < (c :: rest).countP (· != '_') then none
    else do readDigits? (← digitValue? c) rest

/-- A blank that may stand around a number: any but the four information separators. -/
def isMargin (c : Char) : Bool := isBlank c && !(0x1C ≤ c.toNat && c.toNat ≤ 0x1F)

/-- Reads an integer: margins around it do not count, and one sign may stand before the digits. -/
def readInt? (text : Text) : Option Int :=
  match strip isMargin text with
  | '-' :: digits => (readNat? digits).map fun n : Nat => -(n : Int)
  | '+' :: digits => (readNat? digits).map fun n : Nat => (n : Int)
  | digits => (readNat? digits).map fun n : Nat => (n : Int)

/-- The integer has few enough digits to be written. -/
def Writable (n : Int) : Prop := n.natAbs < digitBound

instance (n : Int) : Decidable (Writable n) := Nat.decLt _ _

/-- The first of the negative integers that cannot be written. -/
theorem not_writable_neg_digitBound : ¬ Writable (-(digitBound : Int)) := by
  rw [Writable, Int.natAbs_neg, Int.natAbs_natCast]
  exact Nat.lt_irrefl _

end Text

end Phrasebook
