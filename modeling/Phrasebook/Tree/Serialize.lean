import Phrasebook.Record.Json
import Phrasebook.Record.Yaml
import Phrasebook.Text.Lowercase
import Phrasebook.Tree.Record

/-! # Serialized programs

* `Format` — the formats, and their names.
* `Program.serialize` — a program as a text in the format of the given name.
-/

namespace Phrasebook

inductive Format where
  | yaml
  | json
deriving DecidableEq, Repr

def Format.named? (name : Text) : Option Format :=
  if name.lower = "yaml".toList then some .yaml
  else if name.lower = "json".toList then some .json
  else none

def Format.write : Format → Record → Text
  | yaml, record => Yaml.write record
  | json, record => Json.write record

inductive SerializeError where
  | noRecord (error : RecordError)
  | unsupportedFormat (name : Text)
deriving DecidableEq, Repr

def SerializeError.message : SerializeError → Text
  | noRecord error => error.message
  | unsupportedFormat name => "Unsupported serialization format: ".toList ++ name

/-- A program as a text in the format of the given name; without a name, or with an empty one, in
    YAML. A program without a record is reported before an unknown format. -/
def Program.serialize [CallStack] (program : Program) (formatName : Option Text) :
    Except SerializeError Text :=
  match Program.toRecord program with
  | .error e => .error (.noRecord e)
  | .ok record =>
    match formatName with
    | none | some [] => .ok (Format.yaml.write record)
    | some name =>
      match Format.named? name with
      | some format => .ok (format.write record)
      | none => .error (.unsupportedFormat name)

end Phrasebook
