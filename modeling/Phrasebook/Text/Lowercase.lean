import Phrasebook.Text.LetterCase

/-! # Lower case

Texts in lower case, in every script. Two letters need more than a table: capital I with a dot
above becomes two code points, and capital sigma becomes a final sigma at the end of a word.

* `Text.lower` — the text in lower case.
* `Text.letterFollows`, `Text.letterBefore` — the surroundings that decide about a capital sigma.
-/

namespace Phrasebook

def dottedCapitalI : Char := '\u0130'

/-- Capital sigma, the letter whose lower-case form depends on its place. -/
def capitalSigma : Char := '\u03A3'

/-- The lower-case form of a character where its neighbours play no part. -/
def lowerChar (c : Char) : Text :=
  if c.toNat < 0x80 then [c.toLower]
  else if c = dottedCapitalI then ['i', '\u0307']
  else
    match lowerRows.find? (·.covers c.toNat) with
    | some row => [Char.ofNat ((c.toNat : Int) + row.shift).toNat]
    | none => [c]

namespace Text

/-- Whether a letter follows, case-ignorable characters being skipped. -/
def letterFollows (rest : Text) : Bool :=
  match rest.dropWhile isCaseIgnorable with
  | [] => false
  | c :: _ => isCased c

/-- Whether a letter stands before the next character, once `c` has been read after a text for
    which the answer was `before`. -/
def letterBefore (before : Bool) (c : Char) : Bool :=
  if isCaseIgnorable c then before else isCased c

/-- The text in lower case; `before` tells whether a letter stands before it. A capital sigma
    after a letter and before none is final. -/
def lowerFrom (before : Bool) : Text → Text
  | [] => []
  | c :: rest =>
    (if c = capitalSigma then
        if before && !letterFollows rest then ['\u03C2'] else ['\u03C3']
      else lowerChar c)
      ++ lowerFrom (letterBefore before c) rest

def lower (text : Text) : Text := lowerFrom false text

@[simp] theorem lower_nil : lower [] = [] := rfl

end Text

end Phrasebook
