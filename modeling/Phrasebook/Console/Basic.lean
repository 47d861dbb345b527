import Phrasebook.Console.LineBuffer
import Phrasebook.Session.Basic

/-! # The console

Typing programs line by line. The console prompts for a line, gathers lines until they make up a
text that can be run, and tells what came of it.

* `Console` — a session with the text that waits for more lines.
* `Console.prompt`, `Console.feed` — asking for a line and taking it.
* `Console.transcript` — all that is written while the lines of an input are typed.

What is written is a list of effects whose messages are written as they stand.
-/

namespace Phrasebook

abbrev Writes := List Effect

namespace Writes

def line (text : Text) : Effect := ⟨.stdout, text ++ ['\n']⟩

def errorLine (text : Text) : Effect := ⟨.stderr, text ++ ['\n']⟩

/-- The debugging lines of the last run of a session, where they are asked for. -/
def debug {host : Host} (wanted : Bool) (session : Session host) : Writes :=
  if wanted then session.debugLines.map errorLine else []

/-- What the messages of a report say on the output channel, a line each. -/
def messages (report : Report) : Writes :=
  report.effects.filterMap fun effect =>
    if effect.channel = .stdout then some (line effect.message) else none

/-- How the run of a script is told: its messages, and then its failure or its output. -/
def result (report : Report) : Writes :=
  messages report ++
    (if report.failed then [errorLine report.errorText]
      else report.outputText.toList.map line)

end Writes

structure Console (host : Host) where
  session : Session host
  held : Text := []
  debug : Bool := false

namespace Console

variable {host : Host} [CallStack]

def banner : Writes :=
  [Writes.line "Pon REPL v0.1".toList,
   Writes.line "Type 'exit' or press Ctrl+D to quit.".toList]

def farewell : Writes := [Writes.line "\nExiting.".toList]

def prompt (console : Console host) : Writes :=
  [⟨.stdout, if console.held.isEmpty then ">>> ".toList else "... ".toList⟩]

/-- Whether a line leaves the console: it says so, and nothing waits for more lines. -/
def leaves (console : Console host) (line : Text) : Bool :=
  console.held.isEmpty && Text.strip isBlank line == "exit".toList

/-- Takes a line: what is written, and the console that waits for the next line. There is none
    after a fault that is not the script's. -/
def feed (console : Console host) (line : Text) : Writes × Except Fault (Console host) :=
  match LineBuffer.offer console.held line with
  | .blank => ([], .ok { console with held := [] })
  | .waiting held => ([], .ok { console with held })
  | .ready chunk =>
    match console.session.run chunk true with
    | (.ok report, session) =>
      (Writes.debug console.debug session ++ Writes.result report,
        .ok { console with session, held := [] })
    | (.error e, session) => (Writes.debug console.debug session, .error e)

def transcript (console : Console host) : List Text → Except Fault Writes
  | [] => .ok (console.prompt ++ farewell)
  | line :: lines =>
    if console.leaves line then .ok console.prompt
    else
      match console.feed line with
      | (writes, .ok next) => do return console.prompt ++ writes ++ (← next.transcript lines)
      | (_, .error e) => .error e

end Console

end Phrasebook
