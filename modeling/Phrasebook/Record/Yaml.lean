import Phrasebook.Record.Basic
import Phrasebook.Record.Yaml.Scalar

/-! # Records as YAML

Fields and items each begin a line. The items of a list stand at the indentation of the field that
holds them, and the fields of an item behind its dash.

* `Yaml.write` — a record as a YAML document.
-/

namespace Phrasebook.Yaml

mutual

def writeField (indent : Nat) : Field → Text
  | .text name value =>
    name ++ [':', ' '] ++ writeScalar (indent + name.length + 2) (indent + 2) value
  | .number name value => name ++ [':', ' '] ++ Text.ofInt value
  | .records name [] => name ++ ": []".toList
  | .records name (item :: items) =>
    name ++ [':'] ++ writeItem indent item ++ writeItems indent items

def writeFields (indent : Nat) : List Field → List Text
  | [] => []
  | field :: fields => writeField indent field :: writeFields indent fields

def writeItem (indent : Nat) : Record → Text
  | .mk fields =>
    newline indent ++ ['-', ' '] ++ List.intercalate (newline (indent + 2)) (writeFields (indent + 2) fields)

def writeItems (indent : Nat) : List Record → Text
  | [] => []
  | item :: items => writeItem indent item ++ writeItems indent items

end

def write (record : Record) : Text :=
  List.intercalate (newline 0) (writeFields 0 record.fields) ++ ['\n']

end Phrasebook.Yaml
