import Phrasebook.Text.Basic

/-! # Paths

A path names a file by the steps that lead to it.

* `Path.ofText`, `Path.print` — reading and writing paths. Steps that lead nowhere are dropped.
* `Path.up`, `Path.down` — one step from a place to the next.
-/

namespace Phrasebook

/-- The steps to a file. The root is empty for a path that starts in the working directory. -/
structure Path where
  root : Text
  steps : List Text
deriving DecidableEq, Repr

namespace Path

/-- Whether a step leads anywhere: an empty one does not, and neither does a single dot. -/
def leads (step : Text) : Bool := step ≠ [] && step ≠ ['.']

/-- The root that a text begins with. Exactly two slashes are a root of their own; any other
    number of them is the same as one. -/
def rootOf (text : Text) : Text :=
  match text.takeWhile (· = '/') with
  | [] => []
  | ['/', '/'] => ['/', '/']
  | _ => ['/']

def ofText (text : Text) : Path := ⟨rootOf text, (List.splitOn '/' text).filter leads⟩

def print (path : Path) : Text :=
  match path with
  | ⟨[], []⟩ => ['.']
  | ⟨root, steps⟩ => root ++ List.intercalate ['/'] steps

def outward : Text := ['.', '.']

/-- The place around a place. Around the root lies the root itself; all that lies around the
    working directory is one place, of which nothing is known. -/
def up : Path → Path
  | ⟨[], []⟩ => ⟨outward, []⟩
  | ⟨root, steps⟩ => ⟨root, steps.dropLast⟩

def down (place : Path) (name : Text) : Path := { place with steps := place.steps ++ [name] }

def start (path : Path) : Path := ⟨path.root.take 1, []⟩

end Path

end Phrasebook
