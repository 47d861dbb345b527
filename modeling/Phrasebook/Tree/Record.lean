import Phrasebook.CallStack
import Phrasebook.Record.Basic
import Phrasebook.Tree.Basic

/-! # Programs as records

Every node of a tree becomes a record with a tag, its text or its children, and the line and
column it stands at, if they are known. Columns count from one here.

* `Program.toRecordWithin`, `Program.toRecord` — the record of a program, within a number of levels
  and within those that the stack has room for.
* `RecordError` — why a tree has none: it has a foreign part, or nests too deep.
-/

namespace Phrasebook

inductive RecordError where
  | foreignPart (label : Text)
  | tooDeep
deriving DecidableEq, Repr

def RecordError.message : RecordError → Text
  | foreignPart label => "cannot serialize name part ".toList ++ label
  | tooDeep => "the program is nested too deeply".toList

def placeFields : Option Position → List Field
  | none => []
  | some position =>
    [.number "line".toList position.row, .number "col".toList (position.column + 1)]

def tagField (tag : Text) : Field := .text "tag".toList tag

def childrenField (children : List Record) : Field := .records "children".toList children

def leafRecord (tag text : Text) (at? : Option Position) : Record :=
  .mk (tagField tag :: .text "text".toList text :: placeFields at?)

def nodeRecord (tag : Text) (at? : Option Position) (children : List Record) : Record :=
  .mk (tagField tag :: placeFields at? ++ [childrenField children])

mutual

/-- The record of a part, inside which fillers may nest `levels` deep. The first part in reading
    order that has no record is reported. -/
def Part.toRecord (levels : Nat) : Part → Except RecordError Record
  | .word text at? => .ok (leafRecord "word".toList text at?)
  | .string text at? => .ok (leafRecord "string".toList text at?)
  | .filler content at? =>
    match levels with
    | 0 => .error .tooDeep
    | levels + 1 => do
      return nodeRecord "filler".toList at? (← Program.toRecords levels content)
  | .foreign label => .error (.foreignPart label)

def Part.toRecords (levels : Nat) : List Part → Except RecordError (List Record)
  | [] => .ok []
  | part :: parts => do return (← part.toRecord levels) :: (← Part.toRecords levels parts)

def Command.toRecord (levels : Nat) : Command → Except RecordError Record
  | .mk parts at? => do return nodeRecord "command".toList at? (← Part.toRecords levels parts)

def Program.toRecords (levels : Nat) : List Command → Except RecordError (List Record)
  | [] => .ok []
  | command :: commands => do
    return (← command.toRecord levels) :: (← Program.toRecords levels commands)

end

/-- The record of a program whose fillers nest less than `levels` deep. -/
def Program.toRecordWithin (levels : Nat) (program : Program) : Except RecordError Record :=
  match levels with
  | 0 => .error .tooDeep
  | levels + 1 => do
    return .mk [tagField "program".toList, childrenField (← Program.toRecords levels program)]

def Program.toRecord [CallStack] (program : Program) : Except RecordError Record :=
  Program.toRecordWithin recordLimit program

end Phrasebook
