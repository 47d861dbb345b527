import Phrasebook.Tree.Printer

/-! # Values and outputs

* `Value` — what commands take and give back.
* `Value.display`, `Value.truthy` — the two questions that can be asked of every value.
* `Value.print`, `Value.describe` — the value as program text, and its description.
* `Output` — the three ways in which a command ends.
-/

namespace Phrasebook

/-- A value that the embedding program brings along: what it shows, whether it counts as true, and
    an identity that tells it from every other such value. -/
structure HostValue where
  identity : Nat
  shown : Text
  truthy : Bool
deriving DecidableEq, Repr

inductive Value where
  | string (content : Text)
  | nothing
  | error (message : Text)
  | host (value : HostValue)
deriving DecidableEq, Repr

namespace Value

def errorText (message : Text) : Text := "error ".toList ++ Text.braced message

def display : Value → Text
  | string content => content
  | nothing => "nothing".toList
  | error message => errorText message
  | host value => value.shown

/-- Whether a value counts as true: texts do unless they are empty, nothing and errors do not. -/
def truthy : Value → Bool
  | string content => !content.isEmpty
  | nothing => false
  | error _ => false
  | host value => value.truthy

/-- The value as program text; a value of the embedding program by what it shows. -/
def print : Value → Text
  | string content => Text.braced content
  | nothing => "nothing".toList
  | error message => errorText message
  | host value => value.shown

def describe : Value → Text
  | string content => "StringValue(".toList ++ Quoted.write content ++ [')']
  | nothing => "NOTHING".toList
  | error message => "ErrorValue(".toList ++ Quoted.write message ++ [')']
  | host value => "HostValue(".toList ++ Quoted.write value.shown ++ [')']

def string? : Value → Option Text
  | string content => some content
  | _ => none

def isError : Value → Bool
  | error _ => true
  | _ => false

end Value

/-! ## Outputs -/

inductive Output where
  | returned (value : Value)
  | thrown (value : Value)
  /-- A program came to its end, or a command chose to answer like one. -/
  | lastValue (value : Value)
deriving DecidableEq, Repr

namespace Output

def ok : Output := returned .nothing

def error (message : Text) : Output := thrown (.error message)

def value : Output → Value
  | returned value => value
  | thrown value => value
  | lastValue value => value

def kind : Output → Text
  | returned _ => "Returned".toList
  | thrown _ => "Thrown".toList
  | lastValue _ => "LastValue".toList

def isThrown : Output → Bool
  | thrown _ => true
  | _ => false

def print (output : Output) : Text := output.kind ++ ": ".toList ++ output.value.print

def describe (output : Output) : Text :=
  output.kind ++ "(value=".toList ++ output.value.describe ++ [')']

end Output

end Phrasebook
