import Phrasebook.Tree.Parser

/-! # Excerpts

The lines of a source around a place, with their numbers, a mark before the line in question and
a caret below the column in question.

* `Excerpt.lines` — the lines of an excerpt.
* `excerpt` — the excerpt as a text.
* `SyntaxError.report` — what is told about a syntax error: its message and an excerpt.
-/

namespace Phrasebook

namespace Excerpt

/-- A line of the source behind its number, which is right-aligned in `width` columns. -/
def numbered (width : Nat) (marked : Bool) (number : Int) (content : Text) : Text :=
  [if marked then '>' else ' ', ' '] ++ List.leftpad width ' ' (Text.ofInt number) ++ " | ".toList
    ++ content

/-- The line below a marked line, with a caret under its `column`-th character. -/
def caret (width : Nat) (column : Int) : Text :=
  "  ".toList ++ List.replicate width ' ' ++ " | ".toList
    ++ List.replicate (column - 1).toNat ' ' ++ ['^']

/-- The lines of the excerpt around line `line` of a source, with at most `radius` lines before
    and after it. Lines and columns count from one. There is no caret without a column, and no
    excerpt at all around a line that the source does not have. -/
def lines (source : Text) (line : Int) (column : Option Int) (radius : Int) : List Text :=
  let all := List.splitOn '\n' source
  if line < 1 || all.length < line then []
  else
    let first := max 1 (line - radius)
    let last := min (all.length : Int) (line + radius)
    let width := (Text.ofInt last).length
    (all.zipIdx 1).flatMap fun (content, index) =>
      let number : Int := index
      if first ≤ number && number ≤ last then
        numbered width (number == line) number content
          :: (if number == line then (column.map (caret width)).toList else [])
      else []

end Excerpt

def excerptRadius : Int := 2

def excerpt (source : Text) (line : Int) (column : Option Int) (radius : Int := excerptRadius) :
    Text :=
  List.intercalate ['\n'] (Excerpt.lines source line column radius)

/-- What is told about a syntax error in a source: its message, and an excerpt with a caret at the
    offset of the error. -/
def SyntaxError.report (e : SyntaxError) (source : Text) : Text :=
  let place := Position.locate source e.position.offset
  "SyntaxError: ".toList ++ e.message ++ ['\n'] ++ excerpt source place.row (some (place.column + 1))

end Phrasebook
