import Phrasebook.Text.Lowercase
import Phrasebook.Tree.Parser
import Phrasebook.Tree.Printer

/-! # Dispatch keys

The key of a command is its skeleton: the words in lower case, with gaps where strings and
fillers stand. What a command does depends on its key and on the values in its gaps.

* `KeyPart`, `Key` — words and gaps.
* `Key.ofParts` — the key of a sequence of words and gaps; words are lowered.
* `Key.ofCommand` — the key of a command.
* `Key.print` — the key as a program of one command with empty strings in its gaps.
* `Key.ofPattern` — the key that a text of one command describes.
-/

namespace Phrasebook

inductive KeyPart where
  | word (text : Text)
  | gap
deriving DecidableEq, Repr

namespace KeyPart

def lower : KeyPart → KeyPart
  | word text => word text.lower
  | gap => gap

def isGap : KeyPart → Bool
  | word _ => false
  | gap => true

/-- The place that a part of a command contributes to the skeleton. -/
def ofPart : Part → KeyPart
  | .word text _ => word text
  | _ => gap

def print : KeyPart → Text
  | word text => text.escapeWord
  | gap => Text.braced []

def describe : KeyPart → Text
  | word text => Quoted.write text
  | gap => "GAP".toList

end KeyPart

/-- The skeleton of a command. Keys are compared place by place; arguments never take part. -/
structure Key where
  parts : List KeyPart
deriving DecidableEq, Repr

namespace Key

/-- The key of a sequence of words and gaps. Words are matched in lower case. -/
def ofParts (parts : List KeyPart) : Key := ⟨parts.map KeyPart.lower⟩

def ofWord (text : Text) : Key := ofParts [.word text]

def ofCommand (command : Command) : Key := ofParts (command.parts.map KeyPart.ofPart)

/-- The number of gaps, which is the number of arguments. -/
def arity (key : Key) : Nat := key.parts.countP KeyPart.isGap

def length (key : Key) : Nat := key.parts.length

def print (key : Key) : Text := List.intercalate [' '] (key.parts.map KeyPart.print)

def describe (key : Key) : Text :=
  "DispatchKey(".toList ++ Text.bracketed (key.parts.map KeyPart.describe) ++ [')']

end Key

/-! ## Patterns -/

inductive PatternFault where
  | unreadable (fault : ParseFault)
  | notOneCommand (pattern : Text)
deriving DecidableEq, Repr

/-- The key of the only command in a text. -/
def Key.ofPattern [CallStack] (pattern : Text) : Except PatternFault Key :=
  match parseProgram pattern with
  | .error e => .error (.unreadable e)
  | .ok [command] => .ok (.ofCommand command)
  | .ok _ => .error (.notOneCommand pattern)

def PatternFault.notOneCommandMessage (pattern : Text) : Text :=
  "action pattern must be exactly one command: ".toList ++ Quoted.write pattern

end Phrasebook
