import Phrasebook.Position

/-! # Syntax errors

* `SyntaxError.Cause` — why a text cannot be read as a program.
* `SyntaxError` — a cause and the place it refers to.
* `SyntaxError.needsMoreInput` — whether the text was cut short, so that more text may mend it.
* `SyntaxError.message` — the wording.
-/

namespace Phrasebook

/-- Why a text cannot be read. `unspecified` is for whoever embeds the language and has a cause
    of its own to report. -/
inductive SyntaxError.Cause where
  | unspecified
  | escapeAtEndOfInput
  | unclosedString
  | unclosedFiller
  | unexpectedStringClosure
  | unexpectedFillerClosure
deriving DecidableEq, Repr

namespace SyntaxError.Cause

def message : Cause → Text
  | unspecified => "syntax error".toList
  | escapeAtEndOfInput => "escape at end of input".toList
  | unclosedString => "unclosed string".toList
  | unclosedFiller => "unclosed filler".toList
  | unexpectedStringClosure => "unexpected '\x7d'".toList
  | unexpectedFillerClosure => "unexpected ')'".toList

def name : Cause → Text
  | unspecified => "PonSyntaxError".toList
  | escapeAtEndOfInput => "EscapeAtEndOfInput".toList
  | unclosedString => "UnclosedString".toList
  | unclosedFiller => "UnclosedFiller".toList
  | unexpectedStringClosure => "UnexpectedStringClosure".toList
  | unexpectedFillerClosure => "UnexpectedFillerClosure".toList

/-- Whether the text was cut short: something that was opened has not been closed. -/
def needsMoreInput : Cause → Bool
  | unclosedString | unclosedFiller => true
  | _ => false

def isClosure : Cause → Bool
  | unexpectedStringClosure | unexpectedFillerClosure => true
  | _ => false

end SyntaxError.Cause

/-- A syntax error: its cause, the place it refers to, and a wording of its own in place of the
    usual one, if it has any. -/
structure SyntaxError where
  cause : SyntaxError.Cause
  position : Position
  remark : Text := []
deriving DecidableEq, Repr

namespace SyntaxError

/-- The wording of the error: its remark, or the usual one if the remark is empty. -/
def message (e : SyntaxError) : Text :=
  if e.remark.isEmpty then e.cause.message else e.remark

def needsMoreInput (e : SyntaxError) : Bool := e.cause.needsMoreInput

def describe (e : SyntaxError) : Text :=
  e.cause.name ++ ['('] ++ e.position.describe ++ [')']

@[simp] theorem message_mk (cause : Cause) (position : Position) :
    message ⟨cause, position, []⟩ = cause.message := rfl

end SyntaxError

end Phrasebook
