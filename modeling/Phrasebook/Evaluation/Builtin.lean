import Phrasebook.Evaluation.Host

/-! # The built-in actions

What the built-in actions do. One of them runs a program that it reads from its argument, so the
meanings depend on how nested programs are evaluated, and on how many calls are open on the stack.

* `Evaluation`, `Nested` — evaluations of programs, and those of the programs inside a level.
* `nameKey?` — the key that a text gives a name to, or why it cannot be a name.
* `performBuiltin` — what an action does with its arguments.
-/

namespace Phrasebook

/-- An evaluation of programs, each in a scope and while so many calls are open. -/
abbrev Evaluation (host : Host) := Nat → Program → FrameId → host.Eval Output

/-- What one level of nesting knows: how many calls are open in it, and how programs inside it are
    evaluated. -/
structure Nested (host : Host) where
  calls : Nat
  evaluate : Evaluation host

variable {host : Host}

section

variable [CallStack]

/-- The evaluation of a filler. -/
def Nested.filler (nested : Nested host) : Program → FrameId → host.Eval Output :=
  nested.evaluate (nested.calls + CallStack.filler)

/-- The evaluation of a branch, which takes more calls than that of a filler, as an action asks
    for it. -/
def Nested.branch (nested : Nested host) : Program → FrameId → host.Eval Output :=
  nested.evaluate (nested.calls + CallStack.branch)

end

def badName (text : Text) : Text := "bad name ".toList ++ Text.braced text ++ ": ".toList

/-- The key that a program of one command made only of words gives a name to, or else a message. -/
def nameKey? (text : Text) (program : Program) : Except Text Key :=
  match program with
  | [command] =>
    if command.parts.all Part.isWord then .ok (.ofCommand command)
    else .error (badName text ++ "only words are allowed".toList)
  | _ => .error (badName text ++ "expected one command, got ".toList ++ Text.ofNat program.length)

variable [CallStack]

/-- Reads the text of a program during an evaluation, while so many calls are open. A text nested
    too deep is a fault; any other syntax error is left to the caller. -/
def readProgram (calls : Nat) (text : Text) : host.Eval (Except SyntaxError Program) :=
  match parseProgramWithin (readingLimit calls) text with
  | .ok program => pure (.ok program)
  | .error (.malformed e) => pure (.error e)
  | .error .tooDeep => throw .tooDeep

/-- Binds a value, in the frame itself, under the name that a text spells. -/
def bindName (calls : Nat) (scope : FrameId) (value name : Value) : host.Eval Output := do
  match name.string? with
  | none => return .error "the name is not a string".toList
  | some text =>
    match ← readProgram calls text with
    | .error e => return .error (badName text ++ e.message)
    | .ok program =>
      match nameKey? text program with
      | .error message => return .error message
      | .ok key =>
        Eval.register scope key (.stored value)
        return .ok

/-- Runs the program that a branch spells in a frame of its own, if the condition holds. What it
    throws is thrown on; its value is dropped. -/
def runBranch (nested : Nested host) (scope : FrameId) (condition branch : Value) :
    host.Eval Output := do
  if !condition.truthy then return .ok
  match branch.string? with
  | none => return .error "the branch is not a string".toList
  | some text =>
    match ← readProgram nested.calls text with
    | .error e =>
      return .error ("couldn't parse the branch as a program: ".toList ++ e.message)
    | .ok program =>
      let output ← nested.branch program (← Eval.child scope)
      return if output.isThrown then output else .ok

/-- What is thrown for a value: an error as it is, and for any other value an error with the text
    that it shows. -/
def thrownFor (value : Value) : Value :=
  if value.isError then value else .error value.display

def performBuiltin (nested : Nested host) (scope : FrameId) :
    Builtin → List Value → host.Eval Output
  | .branch, [condition, code] => runBranch nested scope condition code
  | .name, [value, spelling] => bindName nested.calls scope value spelling
  | .print, [value] => do
    Eval.emit .stdout value.display
    return .ok
  | .throw, [value] => return .thrown (thrownFor value)
  | .branch, args | .name, args => throw (.wrongArity 2 args.length)
  | .print, args | .throw, args => throw (.wrongArity 1 args.length)

end Phrasebook
