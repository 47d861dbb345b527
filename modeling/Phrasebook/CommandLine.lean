import Phrasebook.Console.Basic
import Phrasebook.File.Directory
import Phrasebook.Tree.Serialize

/-! # The command line

* `Invocation` — what the arguments ask for: the tree of a file, the run of a file, or a console.
* `CommandLine.showTree`, `CommandLine.runFile`, `CommandLine.openConsole` — the three jobs.
* `CommandLine.run` — a whole run, as a function of the arguments, the files and the input.
-/

namespace Phrasebook

inductive Invocation where
  | usage
  | showTree (path : Text)
  | runFile (path : Text)
  | console
deriving DecidableEq, Repr

/-- Reads the arguments. Any argument that begins with a hyphen, other than the one that asks for
    a tree, opens a console, and so do no arguments at all; what is left over is not looked at. -/
def Invocation.ofArgs : List Text → Invocation
  | [] => console
  | first :: rest =>
    if first = "--ast".toList then
      match rest with
      | [] => usage
      | path :: _ => showTree path
    else if first.head? = some '-' then console
    else runFile first

namespace CommandLine

variable [CallStack]

/-- What a run is told by its surroundings. -/
structure Settings where
  maxDepth : Int := defaultMaxDepth
  debug : Bool := false

/-- What a run wrote, and its exit status. -/
structure Outcome where
  writes : Writes
  exit : Nat := 0

/-- Why a run breaks off without an exit status of its own. -/
inductive Failure where
  | unreadableFile (path : Path) (fault : FileFault)
  | undecodableFile
  | start (fault : StartFault)
  | fault (fault : Fault)
  | serialize (error : SerializeError)
deriving DecidableEq, Repr

def usage : Outcome := ⟨[Writes.errorLine "usage: pon.py --ast FILE".toList], 2⟩

def fileNotFound (path : Text) : Outcome :=
  ⟨[Writes.errorLine ("Error: file not found: ".toList ++ path)], 1⟩

def failed (report : Report) : Outcome := ⟨[Writes.errorLine report.errorText], 1⟩

def Outcome.after (writes : Writes) (outcome : Outcome) : Outcome :=
  { outcome with writes := writes ++ outcome.writes }

def session (settings : Settings) (prelude? : Option Text) :
    Except Failure (Session Host.alone) :=
  (Session.start Host.alone () [] prelude? settings.maxDepth).mapError .start

def script (session : Session Host.alone) (source : Text) :
    Except Failure (Report × Session Host.alone) :=
  match session.run source false with
  | (.ok report, session) => .ok (report, session)
  | (.error e, _) => .error (.fault e)

def showTree (settings : Settings) (path : Text) : FileContent → Except Failure Outcome
  | .missing => .ok (fileNotFound path)
  | .unreadable fault => .error (.unreadableFile (.ofText path) fault)
  | .undecodable => .error .undecodableFile
  | .text content => do
    let source := content.unifyNewlines
    match parse source with
    | .error _ => throw (.fault .tooDeep)
    | .ok ⟨program, .clean⟩ =>
      let text ← (Program.serialize program none).mapError .serialize
      return ⟨[⟨.stdout, text⟩], 0⟩
    | .ok _ =>
      let (report, _) ← script (← session settings none) source
      return failed report

def runFile (settings : Settings) (path : Text) (content : FileContent) :
    Except Failure Outcome := do
  let started ← session settings (some preludeSource)
  let early := Writes.debug settings.debug started
  match content with
  | .missing => return (fileNotFound path).after early
  | .unreadable fault => throw (.unreadableFile (.ofText path) fault)
  | .undecodable => throw .undecodableFile
  | .text content =>
    let (report, ended) ← script started content.unifyNewlines
    return ⟨early ++ Writes.debug settings.debug ended ++ Writes.result report,
      if report.failed then 1 else 0⟩

/-- Opens a console: what is written after its banner, and the console. -/
def openConsole (settings : Settings) : Except Failure (Writes × Console Host.alone) := do
  let started ← session settings (some preludeSource)
  return (Writes.debug settings.debug started, { session := started, debug := settings.debug })

def runConsole (settings : Settings) (input : Text) : Except Failure Outcome := do
  let (opening, console) ← openConsole settings
  let writes ← (console.transcript input.unifyNewlines.cutLines).mapError .fault
  return ⟨Console.banner ++ opening ++ writes, 0⟩

def run (settings : Settings) (files : Path → FileContent) (input : Text) (args : List Text) :
    Except Failure Outcome :=
  match Invocation.ofArgs args with
  | .usage => .ok usage
  | .showTree path => showTree settings path (files (.ofText path))
  | .runFile path => runFile settings path (files (.ofText path))
  | .console => runConsole settings input

end CommandLine

end Phrasebook
