import Phrasebook.Evaluation.State

/-! # Embedding programs

A program that embeds the language brings actions of its own along.

* `Host` — its actions, what they remember and what they do.
* `Host.nameOf` — the names of all actions, the built-in ones included.
* `Host.alone` — no embedding program.
-/

namespace Phrasebook

/-- The embedding program, as far as evaluations see it. An action that takes no scope is called
    without one. -/
structure Host where
  Act : Type
  Memory : Type
  name? : Act → Option Text
  /-- Whether the action is told the scope that it is called in. -/
  takesScope : Act → Bool
  perform : Act → Option FrameId → List Value → Eval Act Memory Output

namespace Host

def nameOf (host : Host) : Action host.Act → Option Text
  | .builtin action => some action.label
  | .host action => host.name? action

/-- Whether an action, built-in or not, is told the scope that it is called in. -/
def passesScope (host : Host) : Action host.Act → Bool
  | .builtin action => action.takesScope
  | .host action => host.takesScope action

abbrev State (host : Host) := Phrasebook.State host.Act host.Memory

abbrev Eval (host : Host) := Phrasebook.Eval host.Act host.Memory

/-- No embedding program: there are no actions but the built-in ones. -/
def alone : Host where
  Act := Empty
  Memory := Unit
  name? := nofun
  takesScope := nofun
  perform := nofun

end Host

end Phrasebook
