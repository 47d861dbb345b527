import Phrasebook.Record.Basic
import Phrasebook.Text.Quoted

/-! # Records as JSON

One field or item a line, every level indented by two spaces. Characters beyond ASCII are written
as they are; only what JSON forbids inside a string is escaped.

* `Json.writeString` — a JSON string.
* `Json.write` — a record.
-/

namespace Phrasebook.Json

def writeChar (c : Char) : Text :=
  if c = '\x22' then ['\\', '\x22']
  else if c = '\\' then ['\\', '\\']
  else if c = '\n' then ['\\', 'n']
  else if c = '\r' then ['\\', 'r']
  else if c = '\t' then ['\\', 't']
  else if c = '\x0c' then ['\\', 'f']
  else if c = '\x08' then ['\\', 'b']
  else if c.toNat < 0x20 then '\\' :: 'u' :: Quoted.hex 4 c.toNat
  else [c]

def writeString (text : Text) : Text := '\x22' :: text.flatMap writeChar ++ ['\x22']

def newline (indent : Nat) : Text := '\n' :: List.replicate indent ' '

/-- Items between an opening and a closing bracket, each on a line of its own; without items the
    brackets stand together. -/
def bracket (opening closing : Char) (indent : Nat) (items : List Text) : Text :=
  if items.isEmpty then [opening, closing]
  else opening :: newline (indent + 2) ++ List.intercalate (',' :: newline (indent + 2)) items
    ++ newline indent ++ [closing]

def named (name value : Text) : Text := writeString name ++ [':', ' '] ++ value

mutual

def writeField (indent : Nat) : Field → Text
  | .text name value => named name (writeString value)
  | .number name value => named name (Text.ofInt value)
  | .records name items => named name (bracket '[' ']' indent (writeRecords (indent + 2) items))

def writeFields (indent : Nat) : List Field → List Text
  | [] => []
  | field :: fields => writeField indent field :: writeFields indent fields

def writeRecord (indent : Nat) : Record → Text
  | .mk fields => bracket '{' '}' indent (writeFields (indent + 2) fields)

def writeRecords (indent : Nat) : List Record → List Text
  | [] => []
  | record :: records => writeRecord indent record :: writeRecords indent records

end

def write (record : Record) : Text := writeRecord 0 record

end Phrasebook.Json
