import Phrasebook.CommandLine

/-! # The program

Reads the arguments, the surroundings and the input, and writes what the library tells it to
write. The depth limit and the debugging lines are set by environment variables.
-/

namespace Phrasebook

open StandardStack

def decode (bytes : ByteArray) : FileContent :=
  match String.fromUTF8? bytes with
  | some content => .text content.toList
  | none => .undecodable

/-- What is told about a file that cannot be read. A directory is noticed only when its content is
    asked for, and then without its name. -/
def contentOfError : IO.Error → FileContent
  | .inappropriateType none _ _ => .unreadable .isADirectory
  | .inappropriateType (some _) _ _ => .unreadable .notADirectory
  | .invalidArgument _ _ _ => .unreadable .nameTooLong
  | _ => .missing

def readFile (path : Path) : IO FileContent := do
  if path.print.elem '\x00' then return .unreadable .nullCharacter
  try
    return decode (← IO.FS.readBinFile (String.ofList path.print))
  catch e =>
    return contentOfError e

def writeAll (writes : Writes) : IO Unit := do
  for effect in writes do
    match effect.channel with
    | .stdout => IO.print (String.ofList effect.message)
    | .stderr => IO.eprint (String.ofList effect.message)
  (← IO.getStdout).flush

def readSettings : IO CommandLine.Settings := do
  let limit ← IO.getEnv "PON_MAX_DEPTH"
  let debug ← IO.getEnv "PON_DEBUG"
  return ⟨maxDepthOf none (limit.map String.toList), debug.any (!·.isEmpty)⟩

def failureText : CommandLine.Failure → Text
  | .unreadableFile path fault => fault.message path
  | .undecodableFile => "the file is not UTF-8".toList
  | .start (.unreadablePrelude report) => StartFault.unreadablePreludeMessage report
  | .start (.thrownByPrelude output) => StartFault.thrownByPreludeMessage output
  | .start (.badPattern _) => "an action has no key".toList
  | .start (.fault e) => e.message
  | .fault e => e.message
  | .serialize e => e.message

def finish : Except CommandLine.Failure CommandLine.Outcome → IO UInt32
  | .ok outcome => do
    writeAll outcome.writes
    return outcome.exit.toUInt32
  | .error e => do
    writeAll [Writes.errorLine (failureText e)]
    return 1

def readLines : IO (List Text) := do
  let line ← (← IO.getStdin).getLine
  return Text.cutLines (Text.unifyNewlines line.toList)

/-- Feeds a console with the lines that have been read, and then with those of the standard
    input. -/
partial def converse (console : Console Host.alone) (read : List Text) : IO UInt32 := do
  writeAll console.prompt
  let lines ← if read.isEmpty then readLines else pure read
  match lines with
  | [] =>
    writeAll Console.farewell
    return 0
  | line :: rest =>
    if console.leaves line then return 0
    let (writes, next) := console.feed line
    writeAll writes
    match next with
    | .ok next => converse next rest
    | .error e => finish (.error (.fault e))

end Phrasebook

open Phrasebook StandardStack in
def main (args : List String) : IO UInt32 := do
  let settings ← readSettings
  match Invocation.ofArgs (args.map String.toList) with
  | .usage => finish (.ok CommandLine.usage)
  | .showTree path => finish (CommandLine.showTree settings path (← readFile (.ofText path)))
  | .runFile path => finish (CommandLine.runFile settings path (← readFile (.ofText path)))
  | .console =>
    writeAll Console.banner
    match CommandLine.openConsole settings with
    | .ok (writes, console) =>
      writeAll writes
      converse console []
    | .error e => finish (.error e)
