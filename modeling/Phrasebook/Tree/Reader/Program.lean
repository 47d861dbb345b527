import Phrasebook.Tree.Reader.Part

/-! # Reading commands and programs

The second half of the reader: sequences of parts, sequences of commands, and the descent into
fillers.

* `Reader.moreParts`, `Reader.command` — a command, part by part.
* `Reader.program` — a program, command by command.
* `Reader.atLevel` — the reader for programs whose fillers nest to a given depth. The reader of
  one level is built from the reader of the level below, so the descent into fillers ends.
-/

namespace Phrasebook

namespace Reader

/-! ## Commands -/

/-- Reads the further parts of a command. A terminator belongs to the command that it ends; a
    comment and a closing parenthesis end the command without belonging to it. -/
def moreParts (level : Level) (cursor : Cursor) : Step (List Part) :=
  match _hp : part level cursor with
  | some (.ok (read, after)) => (moreParts level after).cons read
  | some (.error e) => .error e
  | none =>
    match _hm : mark? cursor with
    | some .blank => moreParts level cursor.next
    | some .terminator => .ok ([], cursor.next)
    | some .stringClose => .error (fault .unexpectedStringClosure cursor.position)
    | _ => .ok ([], cursor)
termination_by cursor.rest.length
decreasing_by
  · exact part_shorter _hp
  · exact next_shorter _hm

/-- Reads the command that begins at the cursor, if one does. A command begins with a part and
    its position is that of the part. -/
def command (level : Level) (cursor : Cursor) : Option (Step Command) :=
  match part level cursor with
  | some (.ok (first, after)) =>
    match moreParts level after with
    | .ok (parts, stop) => some (.ok (.mk (first :: parts) first.position?, stop))
    | .error e => some (.error e)
  | some (.error e) => some (.error e)
  | none => none

theorem moreParts_le {level : Level} {cursor : Cursor} {read : List Part} {after : Cursor}
    (h : moreParts level cursor = .ok (read, after)) :
    after.rest.length ≤ cursor.rest.length := by
  fun_induction moreParts level cursor generalizing read with
  | case1 cursor first behind hp ih =>
    obtain ⟨_, hr, _⟩ := Step.cons_eq_ok h
    exact Nat.le_trans (ih hr) (Nat.le_of_lt (part_shorter hp))
  | case2 => simp at h
  | case3 cursor hp hm ih => exact Nat.le_trans (ih h) (Cursor.next_rest_length_le cursor)
  | case4 cursor hp hm =>
    simp only [Except.ok.injEq, Prod.mk.injEq] at h
    exact h.2 ▸ Cursor.next_rest_length_le cursor
  | case5 => simp at h
  | case6 cursor =>
    simp only [Except.ok.injEq, Prod.mk.injEq] at h
    exact h.2 ▸ Nat.le_refl _

theorem command_shorter {level : Level} {cursor : Cursor} {read : Command} {after : Cursor}
    (h : command level cursor = some (.ok (read, after))) :
    after.rest.length < cursor.rest.length := by
  unfold command at h
  split at h
  · next first behind hp =>
    split at h
    · next parts stop hs =>
      simp only [Option.some.injEq, Except.ok.injEq, Prod.mk.injEq] at h
      exact h.2 ▸ Nat.lt_of_le_of_lt (moreParts_le hs) (part_shorter hp)
    · simp at h
  · simp at h
  · simp at h

/-! ## Programs -/

/-- The cursor behind a comment: before the next line feed, or at the end of the text. -/
def skipComment (cursor : Cursor) : Cursor := cursor.next.skipWhile (· != '\n')

theorem skipComment_shorter {cursor : Cursor} {mark : Mark} (h : mark? cursor = some mark) :
    (skipComment cursor).rest.length < cursor.rest.length :=
  Nat.lt_of_le_of_lt (Cursor.skipWhile_rest_length_le _ _) (next_shorter h)

/-- Reads a sequence of commands. It ends at the end of the text or before a closing parenthesis,
    and leaves to its caller whether it should have ended there. -/
def program (level : Level) (cursor : Cursor) : Reading :=
  match _hc : command level cursor with
  | some (.ok (read, after)) => (program level after).cons read
  | some (.error e) => ⟨[], .failed e⟩
  | none =>
    match _hm : mark? cursor with
    | none => ⟨[], .endOfText⟩
    | some .fillerClose => ⟨[], .closing cursor⟩
    | some .stringClose => ⟨[], .failed (fault .unexpectedStringClosure cursor.position)⟩
    | some .comment => program level (skipComment cursor)
    | some _ => program level cursor.next
termination_by cursor.rest.length
decreasing_by
  · exact command_shorter _hc
  · exact skipComment_shorter _hm
  · exact next_shorter _hm

theorem program_closing_le {level : Level} {cursor stop : Cursor}
    (h : (program level cursor).stop = .closing stop) :
    stop.rest.length ≤ cursor.rest.length := by
  fun_induction program level cursor with
  | case1 cursor read after hc ih => exact Nat.le_trans (ih h) (Nat.le_of_lt (command_shorter hc))
  | case2 => simp at h
  | case3 => simp at h
  | case4 cursor => simp only [Stop.closing.injEq] at h; exact h ▸ Nat.le_refl _
  | case5 => simp at h
  | case6 cursor hc hm ih => exact Nat.le_trans (ih h) (Nat.le_of_lt (skipComment_shorter hm))
  | case7 cursor hc mark _ _ _ hm ih => exact Nat.le_trans (ih h) (Nat.le_of_lt (next_shorter hm))

/-! ## Levels -/

/-- The reader for programs in which fillers are nested less than `n` deep. At level zero even
    the program itself is too deep. -/
def atLevel : Nat → Level
  | 0 => ⟨fun _ => ⟨[], .failed .tooDeep⟩, by simp⟩
  | n + 1 => ⟨fun cursor => program (atLevel n) cursor, program_closing_le⟩

end Reader

end Phrasebook
