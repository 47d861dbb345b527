/-! # The stack of calls

Programs inside programs are read, evaluated, written and turned into records by calls inside calls,
and the machine that runs them has room for so many calls and no more. How many these are, and how
many of them one level of nesting takes, is left open; readers and evaluations share the stack.

No result for all programs depends on what the numbers are. The room itself takes part in those that
say which texts can be read, which programs can be written or have a record, and which programs run
in a branch as they do outside of one; elsewhere it is one more way for an evaluation to end.

* `CallStack` — the size of the stack and what a level of nesting takes of it.
* `readingLimit`, `nestingLimit` — how deep a text can nest that is read while calls are open, and
  while none are.
* `writingLimit`, `recordLimit` — how deep a program can nest that is written, or turned into a
  record.
* `StandardStack` — opened where a stack of a thousand calls is meant.
-/

namespace Phrasebook

/-- The stack of the machine that runs the library. The numbers after the first one tell how many
    calls are open at once for each level of nesting, while programs are read, evaluated, written
    and turned into records. -/
class CallStack where
  /-- How many calls can be open at once. -/
  size : Nat
  /-- The calls of a reader for a filler. -/
  reading : Nat
  /-- The calls of an evaluation for a filler. -/
  filler : Nat
  /-- The calls of an evaluation for a branch, which is run by an action. -/
  branch : Nat
  /-- The calls of a writer for a filler. -/
  writing : Nat
  /-- The calls for a filler while a record is made. -/
  recording : Nat
  reading_pos : 0 < reading
  /-- There is room for a text without fillers. -/
  reading_le_size : reading ≤ size
  filler_le_branch : filler ≤ branch

section

variable [CallStack]

theorem CallStack.size_pos : 0 < CallStack.size :=
  Nat.lt_of_lt_of_le CallStack.reading_pos CallStack.reading_le_size

/-- The number of open fillers that no reader can follow while so many calls are open. -/
def readingLimit (calls : Nat) : Nat := (CallStack.size - calls) / CallStack.reading

/-- The number of open fillers that no reader can follow. -/
def nestingLimit : Nat := readingLimit 0

/-- The number of fillers inside each other that cannot be written. -/
def writingLimit : Nat := CallStack.size / CallStack.writing

/-- The number of fillers inside each other that no record can be made of. -/
def recordLimit : Nat := CallStack.size / CallStack.recording

theorem nestingLimit_pos : 0 < nestingLimit :=
  Nat.div_pos CallStack.reading_le_size CallStack.reading_pos

/-- The more calls are open, the less deep a text can nest. -/
theorem readingLimit_anti {calls more : Nat} (h : calls ≤ more) :
    readingLimit more ≤ readingLimit calls :=
  Nat.div_le_div_right (Nat.sub_le_sub_left h _)

theorem readingLimit_le (calls : Nat) : readingLimit calls ≤ nestingLimit :=
  readingLimit_anti (Nat.zero_le calls)

end

namespace StandardStack

/-- A stack of a thousand calls, for runs on a particular machine. The calls of whoever uses the
    library are not counted. -/
scoped instance standard : CallStack where
  size := 1000
  reading := 3
  filler := 3
  branch := 5
  writing := 8
  recording := 5
  reading_pos := by decide
  reading_le_size := by decide
  filler_le_branch := by decide

end StandardStack

end Phrasebook
