import Phrasebook.Evaluation.Builtin
import Phrasebook.Text.Integer

/-! # Evaluating programs

A program is evaluated command by command. A command is reduced to its key and the values in its
gaps, the key is looked up in the scope, and what it means is applied.

* `gather` — the skeleton and the arguments of a command; fillers are evaluated on the way.
* `execute` — one command.
* `runCommands` — the commands of a program, up to the first that throws.
* `onStack` — a call, for which the stack must have room.
* `evaluateWithin` — programs, with a number of levels that they may still nest. The evaluation of
  one level is built from that of the level below, so it ends on every program.
* `evaluate` — programs, under a limit of the depth.

How deep programs nest is counted twice: by the depth of the state, which is held against the limit,
and by the calls that are open on the stack.
-/

namespace Phrasebook

variable {host : Host} [CallStack]

/-! ## Calls -/

/-- A command reduced to a call, or the value that one of its fillers threw. -/
inductive Call where
  /-- The places of the skeleton, words as they were written, and the arguments in order. -/
  | ready (places : List KeyPart) (args : List Value)
  | thrown (value : Value)

namespace Call

def withWord (text : Text) : Call → Call
  | ready places args => ready (.word text :: places) args
  | thrown value => thrown value

def withArg (arg : Value) : Call → Call
  | ready places args => ready (.gap :: places) (arg :: args)
  | thrown value => thrown value

end Call

/-- Reduces the parts of a command to a call, from left to right. Each filler is evaluated in a
    new frame inside the scope; after one that throws nothing more is looked at. -/
def gather (nested : Nested host) (scope : FrameId) : List Part → host.Eval Call
  | [] => return .ready [] []
  | .word text _ :: rest => do return (← gather nested scope rest).withWord text
  | .string text _ :: rest => do return (← gather nested scope rest).withArg (.string text)
  | .filler content _ :: rest => do
    match ← nested.filler content (← Eval.child scope) with
    | .thrown value => return .thrown value
    | .returned value | .lastValue value => return (← gather nested scope rest).withArg value
  | .foreign label :: _ => throw (.unknownPart label)

/-! ## Commands -/

def perform (nested : Nested host) (scope : FrameId) :
    Action host.Act → List Value → host.Eval Output
  | .builtin action, args => performBuiltin nested scope action args
  | .host action, args =>
    host.perform action (if host.takesScope action then some scope else none) args

/-- Applies the entry that a key means to arguments. A stored value is given back. -/
def apply (nested : Nested host) (scope : FrameId) (key : Key) (args : List Value) :
    Option (Entry host.Act) → host.Eval Output
  | none => return .error ("name not found: ".toList ++ key.print)
  | some (.stored value) => return .returned value
  | some (.action action) => do
    let output ← perform nested scope action args
    if output.isThrown then Eval.record (.thrownBy key output.value)
    return output
  | some (.foreign shown _) => throw (.unknownEntry key shown)

def execute (nested : Nested host) (scope : FrameId) (command : Command) : host.Eval Output := do
  match ← gather nested scope command.parts with
  | .thrown value =>
    Eval.record (.thrownInFiller value)
    return .thrown value
  | .ready places args =>
    let key := Key.ofParts places
    let found := (← get).store.find? scope key
    Eval.record (.dispatched key args found)
    apply nested scope key args found

/-! ## Programs -/

/-- Executes commands in order, `last` being the value of the command before them. The first that
    throws ends the program; otherwise the value of the last one is the value of the program. -/
def runCommands (nested : Nested host) (scope : FrameId) :
    List Command → Value → host.Eval Output
  | [], last => return .lastValue last
  | command :: rest, _ => do
    Eval.record (.began (← get).depth)
    match ← execute nested scope command with
    | .thrown value => return .thrown value
    | .returned value | .lastValue value => runCommands nested scope rest value

def depthMessage (maxDepth : Int) : Text :=
  "maximum nesting depth of ".toList ++ Text.ofInt maxDepth ++ " exceeded".toList

/-- What comes of a program at the limit of the depth: the error that tells of the limit, if this
    can be written. -/
def refuse (maxDepth : Int) : host.Eval Output :=
  if Text.Writable maxDepth then return .error (depthMessage maxDepth)
  else throw (.unwritable maxDepth)

/-- Goes on if there is room on the stack for one more call than those that are open. -/
def onStack {α : Type} (calls : Nat) (m : host.Eval α) : host.Eval α :=
  if calls < CallStack.size then m else throw .tooDeep

/-- Evaluates a program where `room` levels of nesting are left below the limit. -/
def evaluateWithin (maxDepth : Int) : Nat → Evaluation host
  | 0, calls, _, _ => onStack calls (refuse maxDepth)
  | room + 1, calls, program, scope =>
    onStack calls
      (Eval.nest (runCommands ⟨calls, evaluateWithin maxDepth room⟩ scope program .nothing))

/-- The levels of nesting that are left at a depth under a limit. -/
def room (maxDepth : Int) (depth : Nat) : Nat := (maxDepth - depth).toNat

/-- Evaluates a program in a scope while so many calls are open. Where the depth has reached the
    limit, an error is thrown and nothing is done. -/
def evaluate (maxDepth : Int) : Evaluation host := fun calls program scope => do
  evaluateWithin maxDepth (room maxDepth (← get).depth) calls program scope

/-- A level of nesting under a limit of the depth. -/
def Nested.under (maxDepth : Int) (calls : Nat) : Nested host :=
  ⟨calls, Phrasebook.evaluate maxDepth⟩

def executeCommand (maxDepth : Int) (calls : Nat) (command : Command) (scope : FrameId) :
    host.Eval Output :=
  execute (.under maxDepth calls) scope command

def buildCall (maxDepth : Int) (calls : Nat) (command : Command) (scope : FrameId) :
    host.Eval Call :=
  gather (.under maxDepth calls) scope command.parts

/-! ## Limits -/

def defaultMaxDepth : Int := 150

/-- The limit of the depth: the one that is given, or else the number that the setting spells, or
    else the default. -/
def maxDepthOf (given : Option Int) (setting : Option Text) : Int :=
  match given with
  | some limit => limit
  | none => (setting.bind Text.readInt?).getD defaultMaxDepth

end Phrasebook
