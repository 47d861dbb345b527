import Phrasebook.Record.Yaml.Analysis

/-! # YAML scalars

The three styles in which a text is written. All of them fold long lines: past the eightieth
column a line is broken at the next place where the style allows it, and goes on at the
indentation of the scalar. Every writer knows the column at which it writes.

* `Yaml.plainRuns` — texts without quotes.
* `Yaml.singleRuns` — texts between single quotes.
* `Yaml.doubleFrom` — texts between double quotes.
* `Yaml.writeScalar` — a text in the style chosen for it.
-/

namespace Phrasebook.Yaml

/-- Lines longer than this are folded. -/
def bestWidth : Nat := 80

def newline (indent : Nat) : Text := '\n' :: List.replicate indent ' '

/-! ## Plain scalars -/

/-- The runs of spaces and of other characters that make up a text. -/
def spaceRuns (text : Text) : List Text := text.splitBy fun a b => (a == ' ') == (b == ' ')

/-- Writes the runs of a plain scalar, the first of them at `column`. A single space past the
    width becomes a line break. -/
def plainRuns (indent column : Nat) : List Text → Text
  | [] => []
  | run :: runs =>
    if run = [' '] && bestWidth < column then newline indent ++ plainRuns indent indent runs
    else run ++ plainRuns indent (column + run.length) runs

/-! ## Single quotes -/

/-- What single quotes treat alike: spaces, line breaks, quotes and all the rest. -/
inductive RunKind where
  | spaces
  | breaks
  | quotes
  | other
deriving DecidableEq, Repr

def RunKind.of (c : Char) : RunKind :=
  if c = ' ' then spaces else if isBreak c then breaks else if c = '\x27' then quotes else other

def kindRuns (text : Text) : List Text := text.splitBy fun a b => RunKind.of a == RunKind.of b

def runKind (run : Text) : RunKind := (run.head?.map RunKind.of).getD .other

/-- Writes runs between single quotes, the first of them at `column`; `first` tells whether
    nothing stands before it. Quotes are doubled, a run of line breaks that begins with a line
    feed gets one more, and a single space inside the text may fold the line. -/
def singleRuns (indent : Nat) (first : Bool) (column : Nat) : List Text → Text
  | [] => []
  | run :: runs =>
    match runKind run with
    | .spaces =>
      if run.length == 1 && bestWidth < column && !first && !runs.isEmpty then
        newline indent ++ singleRuns indent false indent runs
      else run ++ singleRuns indent false (column + run.length) runs
    | .breaks =>
      (if run.head? = some '\n' then ['\n'] else []) ++ run ++ List.replicate indent ' '
        ++ singleRuns indent false indent runs
    | .quotes => run ++ run ++ singleRuns indent false (column + 2 * run.length) runs
    | .other => run ++ singleRuns indent false (column + run.length) runs

/-! ## Double quotes -/

/-- Whether a character is escaped between double quotes. -/
def isEscaped (c : Char) : Bool :=
  ['\x22', '\\', '\x85', '\u2028', '\u2029', '\uFEFF'].contains c
    || !(isAscii c || inRanges [(0xA0, 0xD7FF), (0xE000, 0xFFFD)] c.toNat)

def letterEscapes : List (Char × Char) :=
  [('\x00', '0'), ('\x07', 'a'), ('\x08', 'b'), ('\t', 't'), ('\n', 'n'), ('\x0B', 'v'),
   ('\x0C', 'f'), ('\r', 'r'), ('\x1B', 'e'), ('\x22', '\x22'), ('\\', '\\'), ('\x85', 'N'),
   ('\xA0', '_'), ('\u2028', 'L'), ('\u2029', 'P')]

/-- The upper-case hexadecimal digits of `n`, led by zeros up to `width` of them. -/
def upperHex (width n : Nat) : Text :=
  let digits := (Nat.toDigits 16 n).map Char.toUpper
  List.replicate (width - digits.length) '0' ++ digits

def escape (c : Char) : Text :=
  match letterEscapes.lookup c with
  | some letter => ['\\', letter]
  | none =>
    if c.toNat ≤ 0xFF then '\\' :: 'x' :: upperHex 2 c.toNat
    else if c.toNat ≤ 0xFFFF then '\\' :: 'u' :: upperHex 4 c.toNat
    else '\\' :: 'U' :: upperHex 8 c.toNat

/-- What begins a line after a break inside double quotes: a backslash, if a space follows. -/
def keepSpace (next : Option Char) : Text := if next = some ' ' then ['\\'] else []

/-- A line break inside double quotes, before the character `next`. -/
def foldDouble (indent : Nat) (next : Option Char) : Text :=
  '\\' :: newline indent ++ keepSpace next

/-- Writes on between double quotes at `column`; `first` tells whether nothing has been written,
    and `fresh` whether nothing has since the last escape. A line past the width is broken behind
    an escape, before a space, or before the first character after an escape, but neither before
    the second nor before the last character of the text. -/
def doubleFrom (indent : Nat) (first fresh : Bool) (column : Nat) : Text → Text
  | [] => []
  | c :: rest =>
    let inside := !first && !rest.isEmpty
    if isEscaped c then
      let behind := column + (escape c).length
      escape c ++
        (if inside && bestWidth + 1 < behind then
          foldDouble indent rest.head?
            ++ doubleFrom indent false true (indent + (keepSpace rest.head?).length) rest
        else doubleFrom indent false true behind rest)
    else if inside && (c == ' ' || fresh) && bestWidth < column then
      foldDouble indent (some c)
        ++ c :: doubleFrom indent false false (indent + (keepSpace (some c)).length + 1) rest
    else c :: doubleFrom indent false false (column + 1) rest

/-! ## Choice of style -/

/-- A text as a scalar that begins at `column` and whose further lines are indented by `indent`. -/
def writeScalar (column indent : Nat) (text : Text) : Text :=
  match styleOf text with
  | .plain => plainRuns indent column (spaceRuns text)
  | .singleQuoted =>
    '\x27' :: singleRuns indent true (column + 1) (kindRuns text) ++ ['\x27']
  | .doubleQuoted => '\x22' :: doubleFrom indent true true (column + 1) text ++ ['\x22']

end Phrasebook.Yaml
