import Phrasebook.Key
import Phrasebook.Value

/-! # What keys are bound to

* `Builtin` — the actions that every session has.
* `Action` — a built-in action, or one that the embedding program brings along.
* `Entry` — what may be bound to a key: a stored value or an action.
-/

namespace Phrasebook

/-- The built-in actions. -/
inductive Builtin where
  | branch
  | name
  | print
  | throw
deriving DecidableEq, Repr

namespace Builtin

def label : Builtin → Text
  | branch => "_if".toList
  | name => "_name".toList
  | print => "_print".toList
  | throw => "_throw".toList

/-- The command that calls a built-in action, with empty strings for its arguments. -/
def pattern : Builtin → Text
  | branch => "if \x7b\x7d, then \x7b\x7d".toList
  | name => "name \x7b\x7d as \x7b\x7d".toList
  | print => "print \x7b\x7d".toList
  | throw => "throw \x7b\x7d".toList

def takesScope : Builtin → Bool
  | branch | name => true
  | print | throw => false

def all : List Builtin := [branch, name, print, throw]

end Builtin

/-- Something that a command can set off. `Act` holds the actions of the embedding program. -/
inductive Action (Act : Type) where
  | builtin (action : Builtin)
  | host (action : Act)
deriving DecidableEq, Repr

inductive Entry (Act : Type) where
  | stored (value : Value)
  | action (action : Action Act)
  /-- Something that does not belong into a frame: its description, and that of its type. -/
  | foreign (shown kind : Text)
deriving DecidableEq, Repr

namespace Entry

/-- The text of an entry, given the names of the actions. Underscores that lead a name are
    dropped; an action without a name is called a handler. -/
def print {Act : Type} (nameOf : Action Act → Option Text) : Entry Act → Text
  | stored value => value.print
  | action act =>
    let name := ((nameOf act).getD "handler".toList).dropWhile (· == '_')
    "<action ".toList ++ name ++ ['>']
  | foreign shown _ => shown

def describe {Act : Type} (nameOf : Action Act → Option Text) : Entry Act → Text
  | stored value => "StoredValue(".toList ++ value.describe ++ [')']
  | action act => "<Action ".toList ++ (nameOf act).getD "<handler>".toList ++ ['>']
  | foreign shown _ => shown

def isProper {Act : Type} : Entry Act → Bool
  | stored _ | action _ => true
  | foreign _ _ => false

end Entry

end Phrasebook
