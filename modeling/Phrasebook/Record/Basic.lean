import Phrasebook.Text.Basic

/-! # Records

Tagged data: a record is a list of named fields, in order, and a field holds a text, a number or a
list of records. Programs are written to files in this form.

* `Field`, `Record` — the data.
-/

namespace Phrasebook

mutual

inductive Field where
  | text (name : Text) (value : Text)
  | number (name : Text) (value : Int)
  | records (name : Text) (items : List Record)

inductive Record where
  | mk (fields : List Field)

end

def Record.fields : Record → List Field
  | mk fields => fields

def Field.name : Field → Text
  | text name _ => name
  | number name _ => name
  | records name _ => name

end Phrasebook
