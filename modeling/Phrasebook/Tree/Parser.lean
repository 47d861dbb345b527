import Phrasebook.CallStack
import Phrasebook.Tree.Reader.Program

/-! # Programs as texts spell them

Reading a whole text as a program.

* `Ending` — how the reading of a text ended, and whether more text may mend it.
* `Parse` — the program that was read, and the ending.
* `parseWithin`, `parse` — the reading of a text, whatever its ending.
* `parseProgramWithin`, `parseProgram` — the program of a text that has to be one from end to end.

How deep a text can nest depends on the room that is left on the stack. A text is read within a
number of levels; where nothing else is going on, these are as many as the stack has room for.
-/

namespace Phrasebook

inductive Ending where
  | clean
  /-- The text was cut short inside the string or filler that `error` points at. -/
  | needsMore (error : SyntaxError)
  /-- The text is wrong, whatever may follow it. -/
  | fatal (error : SyntaxError)
deriving DecidableEq, Repr

def Ending.error? : Ending → Option SyntaxError
  | clean => none
  | needsMore error => some error
  | fatal error => some error

theorem Ending.exists_error {ending : Ending} (h : ending ≠ clean) :
    ∃ e, ending.error? = some e := by
  cases ending with
  | clean => exact absurd rfl h
  | needsMore error | fatal error => exact ⟨error, rfl⟩

/-- A text read as a program: the commands that were understood, and how the reading ended. -/
structure Parse where
  program : Program
  ending : Ending

def Ending.ofError (error : SyntaxError) : Ending :=
  if error.needsMoreInput then .needsMore error else .fatal error

theorem Ending.ofError_ne_clean (error : SyntaxError) : Ending.ofError error ≠ clean := by
  rw [ofError]
  split <;> nofun

/-- Reads a whole text whose fillers nest less than `levels` deep. After a syntax error the program
    holds the top-level commands completed before it. A closing parenthesis that closes nothing is
    an error; only the depth of fillers can make the reading fail altogether. -/
def parseWithin (levels : Nat) (text : Text) : Except ParseFault Parse :=
  match (Reader.atLevel levels).read (.atStart text) with
  | ⟨commands, .endOfText⟩ => .ok ⟨commands, .clean⟩
  | ⟨commands, .closing stop⟩ =>
    .ok ⟨commands, .ofError ⟨.unexpectedFillerClosure, stop.position, []⟩⟩
  | ⟨commands, .failed (.malformed e)⟩ => .ok ⟨commands, .ofError e⟩
  | ⟨_, .failed .tooDeep⟩ => .error .tooDeep

/-- What a reading comes to where the text has to be a program from its first character to its
    last. -/
def Parse.whole : Except ParseFault Parse → Except ParseFault Program
  | .ok ⟨program, ending⟩ =>
    match ending.error? with
    | none => .ok program
    | some e => .error (.malformed e)
  | .error e => .error e

def parseProgramWithin (levels : Nat) (text : Text) : Except ParseFault Program :=
  Parse.whole (parseWithin levels text)

theorem Parse.whole_eq_ok_iff {read : Except ParseFault Parse} {program : Program} :
    whole read = .ok program ↔ read = .ok ⟨program, .clean⟩ := by
  cases read with
  | error fault => simp [whole]
  | ok read =>
    obtain ⟨commands, ending⟩ := read
    cases ending <;> simp [whole, Ending.error?]

section

variable [CallStack]

/-- Reads a whole text where no calls are open. -/
def parse (text : Text) : Except ParseFault Parse := parseWithin nestingLimit text

/-- Reads a whole text that has to be a program from its first character to its last. -/
def parseProgram (text : Text) : Except ParseFault Program := Parse.whole (parse text)

theorem parseProgram_eq_ok_iff {text : Text} {program : Program} :
    parseProgram text = .ok program ↔ parse text = .ok ⟨program, .clean⟩ :=
  Parse.whole_eq_ok_iff

end

end Phrasebook
