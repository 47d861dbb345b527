import Phrasebook.Evaluation.Evaluator
import Phrasebook.Session.Excerpt
import Phrasebook.Session.Report

/-! # Sessions

A session keeps two frames: one with the built-in actions, the names of the prelude and the
actions of the embedding program, and inside it one for what scripts bind.

* `bindActions` — actions bound under the keys of their patterns.
* `preludeSource` — the names that every program starts with.
* `Session.start` — a new session, or why there is none.
* `Session.run` — the run of a script.
-/

namespace Phrasebook

variable [CallStack]

/-! ## Binding actions -/

/-- Binds actions in a frame, each under the key of its pattern, and gives the keys. The first
    pattern that describes no key ends it; what was bound before stays bound. -/
def bindActions {Act : Type} (store : Store Act) (frame : FrameId) :
    List (Text × Action Act) → Store Act × Except PatternFault (List Key)
  | [] => (store, .ok [])
  | (pattern, action) :: rest =>
    match Key.ofPattern pattern with
    | .error e => (store, .error e)
    | .ok key =>
      match bindActions (store.bind frame key (.action action)) frame rest with
      | (store, .ok keys) => (store, .ok (key :: keys))
      | (store, .error e) => (store, .error e)

def builtinActions {Act : Type} : List (Text × Action Act) :=
  Builtin.all.map fun action => (action.pattern, .builtin action)

/-! ## Sessions -/

/-- The names that every program starts with: one for the absence of a value, one for the empty
    text. -/
def preludeSource : Text :=
  "name () as \x7bnothing\x7d\nname \x7b\x7d as \x7bempty\x7d\n".toList

/-- A session: the state its scripts share, and the limit of the depth. -/
structure Session (host : Host) where
  state : host.State
  maxDepth : Int

inductive StartFault where
  | unreadablePrelude (report : Text)
  | thrownByPrelude (output : Output)
  | badPattern (fault : PatternFault)
  | fault (fault : Fault)
deriving DecidableEq, Repr

def StartFault.unreadablePreludeMessage (report : Text) : Text :=
  "Failed to parse root.pon:\n".toList ++ report

def StartFault.thrownByPreludeMessage (output : Output) : Text :=
  "Error loading root.pon: ".toList ++ output.print

namespace Session

variable {host : Host}

/-- The frame of the built-in actions, the prelude and the embedding program. -/
def builtinsFrame : FrameId := 0

def userFrame : FrameId := 1

def emptyFrames {Act : Type} : Store Act :=
  let (builtins, store) := Store.empty.root
  (store.child builtins).2

def bindHere (actions : List (Text × Action host.Act)) (session : Session host) :
    Except StartFault (Session host) :=
  match bindActions session.state.store builtinsFrame actions with
  | (store, .ok _) => .ok { session with state := { session.state with store } }
  | (_, .error e) => .error (.badPattern e)

/-- Runs a prelude in the outer frame. Its effects are dropped. -/
def load (source : Text) (session : Session host) : Except StartFault (Session host) :=
  match parseProgram source with
  | .error (.malformed e) => .error (.unreadablePrelude (e.report source))
  | .error .tooDeep => .error (.fault .tooDeep)
  | .ok program =>
    match evaluate session.maxDepth 0 program builtinsFrame session.state with
    | .error e _ => .error (.fault e)
    | .ok output state =>
      if output.isThrown then .error (.thrownByPrelude output)
      else .ok { session with state := { state with effects := #[] } }

/-- Starts a session. The actions of the embedding program are bound last, so that they take the
    place of what the prelude binds under the same keys. -/
def start (host : Host) (memory : host.Memory) (actions : List (Text × host.Act))
    (prelude? : Option Text) (maxDepth : Int) : Except StartFault (Session host) := do
  let bare : Session host := ⟨{ State.initial memory with store := emptyFrames }, maxDepth⟩
  let builtin ← bare.bindHere builtinActions
  let loaded ← match prelude? with
    | none => pure builtin
    | some source => builtin.load source
  loaded.bindHere (actions.map fun (pattern, action) => (pattern, .host action))

/-! ## Scripts -/

def tooDeepMessage : Text := "InternalError: input is nested too deeply".toList

def fail (session : Session host) (status : Status) (message : Text)
    (output : Option Output := none) (position : Option Position := none) :
    Report × Session host :=
  let state := session.state.emit .stderr message
  (⟨status, output, some message, position, state.effects.toList⟩, { session with state })

def failAt (session : Session host) (source : Text) (e : SyntaxError) : Report × Session host :=
  session.fail .error (e.report source) none (some (.locate source e.position.offset))

/-- Runs a program in the inner frame and reports how it ended. Nesting too deep is reported like
    an error of the script; any other fault is not the script's, and ends the session. -/
def runProgram (session : Session host) (program : Program) :
    Except Fault Report × Session host :=
  match evaluate session.maxDepth 0 program userFrame session.state with
  | .ok output state =>
    let session := { session with state }
    if output.isThrown then
      let (report, session) := session.fail .thrown output.print (some output)
      (.ok report, session)
    else (.ok ⟨.success, some output, none, none, state.effects.toList⟩, session)
  | .error .tooDeep state =>
    let (report, session) := { session with state }.fail .error tooDeepMessage
    (.ok report, session)
  | .error e state => (.error e, { session with state })

/-- Runs a script. A script that is cut short is reported as incomplete if `allowIncomplete` says
    so, and as an error otherwise. Effects and trace are those of this script alone. -/
def run (session : Session host) (source : Text) (allowIncomplete : Bool) :
    Except Fault Report × Session host :=
  let session := { session with state := session.state.cleared }
  match parse source with
  | .error _ =>
    let (report, session) := session.fail .error tooDeepMessage
    (.ok report, session)
  | .ok ⟨_, .needsMore e⟩ =>
    if allowIncomplete then
      (.ok { status := .incomplete, position := some e.position }, session)
    else
      let (report, session) := session.failAt source e
      (.ok report, session)
  | .ok ⟨_, .fatal e⟩ =>
    let (report, session) := session.failAt source e
    (.ok report, session)
  | .ok ⟨program, .clean⟩ => session.runProgram program

def debugLines (session : Session host) : List Text :=
  session.state.trace.toList.filterMap (·.debugLine? host.nameOf)

end Session

end Phrasebook
