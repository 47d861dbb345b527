import Phrasebook.Evaluation.State

/-! # Reports

* `Status` — how the run of a script ended.
* `Report` — what is told about the run of a script.
* `Report.errorText` — the line or lines that an error or a thrown value is told with.
-/

namespace Phrasebook

inductive Status where
  | success
  | thrown
  | error
  | incomplete
deriving DecidableEq, Repr

def Status.label : Status → Text
  | success => "success".toList
  | thrown => "thrown".toList
  | error => "error".toList
  | incomplete => "incomplete".toList

structure Report where
  status : Status
  output : Option Output := none
  message : Option Text := none
  position : Option Position := none
  effects : List Effect := []

namespace Report

def failed (report : Report) : Bool := report.status == .error || report.status == .thrown

/-- The message of a failure, or a stand-in for one that is missing or empty. -/
def messageOrUnknown (report : Report) : Text :=
  match report.message with
  | some (c :: rest) => c :: rest
  | _ => "Unknown error".toList

/-- What a message begins with that names its place itself. -/
def placeLead : Text := "Error on line ".toList

/-- The text for a failure: its message behind the place, if the place is known and the message
    does not name it already. There is none for a run that did not fail. -/
def errorText (report : Report) : Text :=
  if report.failed then
    let message := report.messageOrUnknown
    match report.position with
    | none => message
    | some position =>
      if placeLead.isPrefixOf message then message
      else placeLead ++ Text.ofInt position.row ++ ", col ".toList
        ++ Text.ofInt (position.column + 1) ++ ": ".toList ++ message
  else []

def outputText (report : Report) : Option Text := report.output.map Output.print

end Report

end Phrasebook
