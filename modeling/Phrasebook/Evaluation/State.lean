import Phrasebook.Scope.Store

/-! # The state of an evaluation

* `Effect` — a message to the outside world.
* `TraceEvent` — a step of an evaluation, for whoever wants to follow it.
* `Fault` — what an evaluation cannot go on after. A fault is no value of the language: it ends
  the evaluation, but the state it had reached remains.
* `State` — frames, effects, depth, trace and the memory of the embedding program.
* `Eval` — computations on the state that may end in a fault.
-/

namespace Phrasebook

inductive Channel where
  | stdout
  | stderr
deriving DecidableEq, Repr

def Channel.label : Channel → Text
  | stdout => "stdout".toList
  | stderr => "stderr".toList

structure Effect where
  channel : Channel
  message : Text
deriving DecidableEq, Repr

/-! ## Trace -/

inductive TraceEvent (Act : Type) where
  /-- A program passed the check of the depth; so many programs are being evaluated now. -/
  | opened (depth : Nat)
  /-- A program that had been opened came to an end of some kind. -/
  | closed
  /-- A command of a program begins, at the given depth. -/
  | began (depth : Nat)
  /-- A key was looked up for a call. -/
  | dispatched (key : Key) (args : List Value) (found : Option (Entry Act))
  /-- A filler threw, so that its command was given up. -/
  | thrownInFiller (value : Value)
  /-- The action called under a key threw. -/
  | thrownBy (key : Key) (value : Value)

namespace TraceEvent

/-- The line that a debugging run shows for an event. Only calls and what is thrown are shown. -/
def debugLine? {Act : Type} (nameOf : Action Act → Option Text) :
    TraceEvent Act → Option Text
  | dispatched key args found =>
    let entry := match found with
      | some entry => entry.describe nameOf
      | none => "None".toList
    some ("[DBG] CALL ".toList ++ key.print ++ [' ']
      ++ Text.bracketed (args.map Value.describe) ++ " -> ".toList ++ entry)
  | thrownInFiller value => some ("[DBG] THROWN in filler ".toList ++ value.display)
  | thrownBy key value =>
    some ("[DBG] THROWN by ".toList ++ key.print ++ [' '] ++ value.display)
  | opened _ | closed | began _ => none

end TraceEvent

/-! ## Faults -/

inductive Fault where
  /-- Programs or fillers are nested deeper than the stack has room for. -/
  | tooDeep
  /-- A number has too many digits to be written into a message. -/
  | unwritable (number : Int)
  /-- A command has a part of a kind that cannot be evaluated. -/
  | unknownPart (label : Text)
  /-- A key is bound to something that does not belong into a frame. -/
  | unknownEntry (key : Key) (shown : Text)
  /-- Something was to be registered that does not belong into a frame. -/
  | improperEntry (entry : ImproperEntry)
  /-- An action was called with a number of arguments that it does not take. -/
  | wrongArity (expected given : Nat)
deriving DecidableEq, Repr

def Fault.message : Fault → Text
  | tooDeep => "input is nested too deeply".toList
  | unwritable _ =>
    "Exceeds the limit (4300 digits) for integer string conversion; ".toList
      ++ "use sys.set_int_max_str_digits() to increase the limit".toList
  | unknownPart label => "Unknown name part: ".toList ++ label
  | unknownEntry key shown =>
    "Unknown scope entry for ".toList ++ key.print ++ ": ".toList ++ shown
  | improperEntry entry => entry.message
  | wrongArity expected given =>
    "expected ".toList ++ Text.ofNat expected ++ " arguments, got ".toList ++ Text.ofNat given

/-! ## State -/

/-- Everything that an evaluation can change. `Act` and `Memory` belong to the embedding program:
    the actions it brings along, and what they remember. -/
structure State (Act Memory : Type) where
  store : Store Act
  effects : Array Effect
  depth : Nat
  trace : Array (TraceEvent Act)
  memory : Memory

/-- A computation on the state. A fault keeps the state it arose in. -/
abbrev Eval (Act Memory : Type) := EStateM Fault (State Act Memory)

namespace State

variable {Act Memory : Type}

def initial (memory : Memory) : State Act Memory := ⟨.empty, #[], 0, #[], memory⟩

def cleared (state : State Act Memory) : State Act Memory :=
  { state with effects := #[], trace := #[] }

def record (state : State Act Memory) (event : TraceEvent Act) : State Act Memory :=
  { state with trace := state.trace.push event }

def emit (state : State Act Memory) (channel : Channel) (message : Text) : State Act Memory :=
  { state with effects := state.effects.push ⟨channel, message⟩ }

def enter (state : State Act Memory) : State Act Memory :=
  { state with depth := state.depth + 1 }.record (.opened (state.depth + 1))

def leave (state : State Act Memory) : State Act Memory :=
  { state with depth := state.depth - 1 }.record .closed

end State

namespace Eval

variable {Act Memory : Type}

def record (event : TraceEvent Act) : Eval Act Memory Unit := modify (·.record event)

def emit (channel : Channel) (message : Text) : Eval Act Memory Unit :=
  modify (·.emit channel message)

def child (scope : FrameId) : Eval Act Memory FrameId :=
  modifyGet fun state =>
    let (frame, store) := state.store.child scope
    (frame, { state with store })

/-- Registers an entry under a key in one frame. An entry that does not belong into a frame is a
    fault. -/
def register (frame : FrameId) (key : Key) (entry : Entry Act) :
    Eval Act Memory Unit := fun state =>
  match state.store.register frame key entry with
  | .ok store => .ok () { state with store }
  | .error e => .error (.improperEntry e) state

/-- Runs a computation with the depth raised by one. However it ends, the depth is lowered
    again. -/
def nest {α : Type} (computation : Eval Act Memory α) : Eval Act Memory α := fun state =>
  match computation state.enter with
  | .ok value state => .ok value state.leave
  | .error fault state => .error fault state.leave

end Eval

end Phrasebook
