import Phrasebook.CallStack
import Phrasebook.Mark
import Phrasebook.Tree.Basic
import Phrasebook.Text.Quoted

/-! # Writing programs

* `Text.escapeWord` — a word with a backslash before every character that is not plain.
* `Program.render` — the text of a program; its commands are separated as the caller wishes, those
  inside fillers always by a semicolon and a space.
* `Program.print` — the text of a program that does not nest too deep to be written.
* `Program.describe` — the description of a tree, which names the kind of every node.
-/

namespace Phrasebook

def fillerSeparator : Text := [';', ' ']

namespace Text

/-- A word as it is written in a program: a backslash stands before every character that would
    otherwise mean something else. -/
def escapeWord : Text → Text
  | [] => []
  | c :: rest => if Mark.of c = .plain then c :: escapeWord rest else '\\' :: c :: escapeWord rest

def braced (text : Text) : Text := '{' :: text ++ ['}']

end Text

/-! ## Programs as text -/

mutual

/-- The text of a part. A foreign part is written by its label. -/
def Part.render : Part → Text
  | .word text _ => Text.escapeWord text
  | .string text _ => Text.braced text
  | .filler content _ =>
    '(' :: List.intercalate fillerSeparator (Program.renderEach content) ++ [')']
  | .foreign label => label

def Part.renderEach : List Part → List Text
  | [] => []
  | part :: parts => part.render :: Part.renderEach parts

/-- The text of a command: its parts with a space between neighbours. -/
def Command.render : Command → Text
  | .mk parts _ => List.intercalate [' '] (Part.renderEach parts)

def Program.renderEach : List Command → List Text
  | [] => []
  | command :: commands => command.render :: Program.renderEach commands

end

/-- The text of a program whose commands are separated by `separator`. -/
def Program.render (separator : Text) (program : Program) : Text :=
  List.intercalate separator (Program.renderEach program)

inductive PrintFault where
  | tooDeep
deriving DecidableEq, Repr

/-- Writes a program, if the stack has room for the fillers inside each other. -/
def Program.print [CallStack] (separator : Text) (program : Program) : Except PrintFault Text :=
  if Program.nesting program < writingLimit then .ok (Program.render separator program)
  else .error .tooDeep

theorem Program.print_eq_ok_iff [CallStack] {separator text : Text} {program : Program} :
    Program.print separator program = .ok text
      ↔ Program.nesting program < writingLimit ∧ Program.render separator program = text := by
  rw [print]
  split <;> simp [*]

/-! ## Descriptions -/

def Text.bracketed (items : List Text) : Text := '[' :: List.intercalate [',', ' '] items ++ [']']

mutual

def Part.describe : Part → Text
  | .word text _ => "Word<".toList ++ Quoted.write text ++ ['>']
  | .string text _ => "String<".toList ++ Quoted.write text ++ ['>']
  | .filler content _ =>
    "Filler(Program(".toList ++ Text.bracketed (Program.describeEach content) ++ [')', ')']
  | .foreign label => label

def Part.describeEach : List Part → List Text
  | [] => []
  | part :: parts => part.describe :: Part.describeEach parts

def Command.describe : Command → Text
  | .mk parts _ => "Command(".toList ++ Text.bracketed (Part.describeEach parts) ++ [')']

def Program.describeEach : List Command → List Text
  | [] => []
  | command :: commands => command.describe :: Program.describeEach commands

end

def Program.describe (program : Program) : Text :=
  "Program(".toList ++ Text.bracketed (Program.describeEach program) ++ [')']

end Phrasebook
