import Phrasebook.Proofs.Reader.Steps

/-! # Reading the same text elsewhere

A text is read in the same way wherever it stands; only the positions tell where that was.

* `Position.shift`, `Position.KeepsStep` — ways to move positions that agree with advancing.
* `Part.relocate`, `Program.relocate`, `SyntaxError.relocate`, `Ending.relocate` — a map of
  positions taken through trees, errors and endings, and through everything else a reader returns.
* `Reader.program_relocate`, `Reader.atLevel_relocates` — moving first and reading then is reading
  first and moving then, one lemma for each reading function.
-/

namespace Phrasebook

/-! ## Maps of positions -/

namespace Position

/-- The position so many characters and lines further on, in the same column. -/
def shift (chars lines : Int) (here : Position) : Position :=
  ⟨here.offset + chars, here.row + lines, here.column⟩

/-- To move and then to advance is to advance and then to move. -/
def KeepsStep (f : Position → Position) : Prop :=
  ∀ here c, f (here.advance c) = (f here).advance c

theorem shift_keepsStep (chars lines : Int) : KeepsStep (shift chars lines) := by
  intro here c
  by_cases h : c = '\n' <;> simp [shift, advance, h] <;> omega

theorem KeepsStep.advance {f : Position → Position} (hf : KeepsStep f) (here : Position)
    (c : Char) : (f here).advance c = f (here.advance c) := (hf here c).symm

theorem KeepsStep.advanceOver {f : Position → Position} (hf : KeepsStep f) (here : Position)
    (text : Text) : (f here).advanceOver text = f (here.advanceOver text) := by
  induction text generalizing here with
  | nil => rfl
  | cons c rest ih => rw [advanceOver_cons, hf.advance, ih, advanceOver_cons]

/-- The line behind a text begins where the first line would, moved by the text and its line
    feed. -/
theorem start_advanceOver_line (text : Text) :
    start.advanceOver (text ++ ['\n']) = shift (text.length + 1) (text.count '\n' + 1) start := by
  rw [← after_nil, ← after_append]
  simp [after, shift, Text.afterLast, List.count_append]
  omega

end Position

/-! ## Trees -/

mutual

def Part.relocate (f : Position → Position) : Part → Part
  | .word text at? => .word text (at?.map f)
  | .string text at? => .string text (at?.map f)
  | .filler content at? => .filler (Program.relocate f content) (at?.map f)
  | .foreign label => .foreign label

def Part.relocateAll (f : Position → Position) : List Part → List Part
  | [] => []
  | part :: parts => part.relocate f :: Part.relocateAll f parts

def Command.relocate (f : Position → Position) : Command → Command
  | .mk parts at? => .mk (Part.relocateAll f parts) (at?.map f)

def Program.relocate (f : Position → Position) : List Command → List Command
  | [] => []
  | command :: commands => command.relocate f :: Program.relocate f commands

end

/-! ## Errors, endings and everything else a reader returns -/

def SyntaxError.relocate (f : Position → Position) (e : SyntaxError) : SyntaxError :=
  { e with position := f e.position }

def ParseFault.relocate (f : Position → Position) : ParseFault → ParseFault
  | .malformed e => .malformed (e.relocate f)
  | .tooDeep => .tooDeep

def Ending.relocate (f : Position → Position) : Ending → Ending
  | .clean => .clean
  | .needsMore e => .needsMore (e.relocate f)
  | .fatal e => .fatal (e.relocate f)

def Parse.relocate (f : Position → Position) (read : Parse) : Parse :=
  ⟨Program.relocate f read.program, read.ending.relocate f⟩

theorem Ending.ofError_relocate (f : Position → Position) (e : SyntaxError) :
    Ending.ofError (e.relocate f) = (Ending.ofError e).relocate f := by
  rw [ofError, ofError]
  show (if e.needsMoreInput = true then _ else _) = _
  split <;> rfl

def Cursor.relocate (f : Position → Position) (cursor : Cursor) : Cursor :=
  ⟨f cursor.position, cursor.rest⟩

theorem Cursor.next_relocate {f : Position → Position} (hf : Position.KeepsStep f)
    (cursor : Cursor) : (cursor.relocate f).next = cursor.next.relocate f := by
  obtain ⟨here, rest⟩ := cursor
  cases rest with
  | nil => rfl
  | cons c rest => simp [relocate, hf here c]

namespace Reader

def Step.relocate {α : Type} (f : Position → Position) (moved : α → α) : Step α → Step α
  | .ok (read, after) => .ok (moved read, after.relocate f)
  | .error fault => .error (fault.relocate f)

def Stop.relocate (f : Position → Position) : Stop → Stop
  | .endOfText => .endOfText
  | .closing here => .closing (here.relocate f)
  | .failed fault => .failed (fault.relocate f)

def Reading.relocate (f : Position → Position) (reading : Reading) : Reading :=
  ⟨Program.relocate f reading.commands, reading.stop.relocate f⟩

/-- The reader of the level reads a text moved as it reads it in its place. -/
def Level.Relocates (level : Level) (f : Position → Position) : Prop :=
  ∀ cursor, level.read (cursor.relocate f) = (level.read cursor).relocate f

variable {f : Position → Position} {level : Level}

@[simp] theorem mark?_relocate (cursor : Cursor) : mark? (cursor.relocate f) = mark? cursor := rfl

theorem Step.relocate_cons {α : Type} {moved : α → α} {movedAll : List α → List α}
    (h : ∀ piece pieces, movedAll (piece :: pieces) = moved piece :: movedAll pieces) (piece : α)
    (step : Step (List α)) :
    (step.cons piece).relocate f movedAll = (step.relocate f movedAll).cons (moved piece) := by
  match step with
  | .ok (pieces, after) => simp [Step.cons, Step.relocate, h]
  | .error _ => rfl

/-! ## Words and strings -/

theorem word_relocate (hf : Position.KeepsStep f) (here : Position) (text : Text) :
    word (f here) text = (word here text).relocate f id := by
  have hcons : ∀ (c : Char) (step : Step Text),
      (step.cons c).relocate f id = (step.relocate f id).cons c :=
    Step.relocate_cons fun _ _ => rfl
  fun_induction word here text with
  | case1 => rfl
  | case2 here c rest hm ih => simp only [word, hm, hf.advance, ih, hcons]
  | case3 here c hm => simp only [word, hm]; rfl
  | case4 here c d rest hm ih => simp only [word, hm, hf.advance, ih, hcons]
  | case5 here c rest hplain hlast hmore =>
    have hends : EndsWord (c :: rest) := by
      intro d hd
      obtain rfl : c = d := by simpa using hd
      have hescape := ne_escape hlast hmore
      cases hm : Mark.of c <;> simp_all [Mark.inWord]
    rw [word_of_endsWord hends]
    rfl

theorem quoted_relocate (hf : Position.KeepsStep f) (opening : Position) (nesting : Nat)
    (here : Position) (text : Text) :
    quoted (f opening) nesting (f here) text
      = (quoted opening nesting here text).relocate f id := by
  have hcons : ∀ (c : Char) (step : Step Text),
      (step.cons c).relocate f id = (step.relocate f id).cons c :=
    Step.relocate_cons fun _ _ => rfl
  fun_induction quoted opening nesting here text with
  | case1 => rfl
  | case2 nesting here c hm => simp only [quoted, hm]; rfl
  | case3 nesting here c d rest hm ih => simp only [quoted, hm, hf.advance, ih, hcons]
  | case4 nesting here c rest hm ih => simp only [quoted, hm, hf.advance, ih, hcons]
  | case5 here c rest hm => simp only [quoted, hm, hf.advance]; rfl
  | case6 here c rest hm nesting ih => simp only [quoted, hm, hf.advance, ih, hcons]
  | case7 nesting here c rest hlast hmore hopen hclose ih =>
    rw [quoted_cons (ne_escape hlast hmore) hopen hclose, hf.advance, ih, hcons]

/-! ## Parts -/

theorem string_relocate (hf : Position.KeepsStep f) (cursor : Cursor) :
    string (cursor.relocate f) = (string cursor).relocate f (Part.relocate f) := by
  have hquoted := quoted_relocate hf cursor.position 0 cursor.next.position cursor.next.rest
  rw [string_eq_map, string_eq_map, Cursor.next_relocate hf]
  simp only [Cursor.relocate, hquoted]
  cases quoted cursor.position 0 cursor.next.position cursor.next.rest <;> rfl

theorem bareWord_relocate (hf : Position.KeepsStep f) (cursor : Cursor) :
    bareWord (cursor.relocate f) = (bareWord cursor).relocate f (Part.relocate f) := by
  have hword := word_relocate hf cursor.position cursor.rest
  rw [bareWord_eq_map, bareWord_eq_map]
  simp only [Cursor.relocate, hword]
  cases word cursor.position cursor.rest <;> rfl

theorem filler_relocate (hf : Position.KeepsStep f) (hl : level.Relocates f) (cursor : Cursor) :
    filler level (cursor.relocate f) = (filler level cursor).relocate f (Part.relocate f) := by
  rw [filler, filler, Cursor.next_relocate hf, hl]
  cases level.read cursor.next with
  | mk content stop =>
    cases stop with
    | endOfText => rfl
    | closing stop => simp only [Reading.relocate, Stop.relocate, Cursor.next_relocate hf]; rfl
    | failed fault => rfl

theorem part_relocate (hf : Position.KeepsStep f) (hl : level.Relocates f) (cursor : Cursor) :
    part level (cursor.relocate f)
      = (part level cursor).map (Step.relocate f (Part.relocate f)) := by
  rw [part, part, mark?_relocate, filler_relocate hf hl, string_relocate hf, bareWord_relocate hf]
  split <;> rfl

/-! ## Commands and programs -/

theorem moreParts_relocate (hf : Position.KeepsStep f) (hl : level.Relocates f) (cursor : Cursor) :
    moreParts level (cursor.relocate f)
      = (moreParts level cursor).relocate f (Part.relocateAll f) := by
  -- Whether there is a part here, and which mark stands here, does not depend on the position; so
  -- the cases are those of the text in its place.
  have hpart := fun cursor => part_relocate hf hl cursor
  have hnone : ∀ {cursor}, part level cursor = none → part level (cursor.relocate f) = none :=
    fun hp => by rw [hpart, hp]; rfl
  fun_induction moreParts level cursor with
  | case1 cursor read after hp ih =>
    have hmoved : part level (cursor.relocate f)
        = some (.ok (read.relocate f, after.relocate f)) := by
      rw [hpart, hp]
      rfl
    rw [moreParts_of_part_eq_some hmoved, ih, Step.relocate_cons fun _ _ => rfl]
  | case2 cursor fault hp =>
    have hmoved : part level (cursor.relocate f) = some (.error (fault.relocate f)) := by
      rw [hpart, hp]
      rfl
    rw [moreParts_of_part_eq_error hmoved]
    rfl
  | case3 cursor hp hm ih =>
    rw [moreParts_of_part_eq_none (hnone hp), mark?_relocate, hm, Cursor.next_relocate hf, ih]
  | case4 cursor hp hm =>
    rw [moreParts_of_part_eq_none (hnone hp), mark?_relocate, hm, Cursor.next_relocate hf]
    rfl
  | case5 cursor hp hm =>
    rw [moreParts_of_part_eq_none (hnone hp), mark?_relocate, hm]
    rfl
  | case6 cursor hp hblank hterminator hclose =>
    rw [moreParts_of_part_eq_none (hnone hp), mark?_relocate]
    split <;> first | contradiction | rfl

theorem command_relocate (hf : Position.KeepsStep f) (hl : level.Relocates f) (cursor : Cursor) :
    command level (cursor.relocate f)
      = (command level cursor).map (Step.relocate f (Command.relocate f)) := by
  have hpart := part_relocate hf hl cursor
  cases hp : part level cursor with
  | none =>
    rw [hp] at hpart
    rw [command_eq_none_iff.2 hp, command_eq_none_iff.2 hpart]
    rfl
  | some step =>
    rw [hp] at hpart
    rw [command_of_part_eq_some hp, command_of_part_eq_some hpart, moreParts_relocate hf hl]
    cases moreParts level cursor <;> rfl

theorem skipComment_relocate (hf : Position.KeepsStep f) (cursor : Cursor) :
    skipComment (cursor.relocate f) = (skipComment cursor).relocate f := by
  rw [skipComment, skipComment, Cursor.next_relocate hf]
  simp [Cursor.skipWhile, Cursor.relocate, hf.advanceOver]

theorem program_relocate (hf : Position.KeepsStep f) (hl : level.Relocates f) (cursor : Cursor) :
    program level (cursor.relocate f) = (program level cursor).relocate f := by
  have hcommand := fun cursor => command_relocate hf hl cursor
  have hnone : ∀ {cursor}, command level cursor = none →
      command level (cursor.relocate f) = none := fun hc => by rw [hcommand, hc]; rfl
  fun_induction program level cursor with
  | case1 cursor read after hc ih =>
    have hmoved : command level (cursor.relocate f)
        = some (.ok (read.relocate f, after.relocate f)) := by
      rw [hcommand, hc]
      rfl
    rw [program_of_command_eq_some hmoved, ih]
    rfl
  | case2 cursor fault hc =>
    have hmoved : command level (cursor.relocate f) = some (.error (fault.relocate f)) := by
      rw [hcommand, hc]
      rfl
    rw [program_of_command_eq_error hmoved]
    rfl
  | case3 cursor hc hm =>
    rw [program_of_command_eq_none (hnone hc), mark?_relocate, hm]
    rfl
  | case4 cursor hc hm =>
    rw [program_of_command_eq_none (hnone hc), mark?_relocate, hm]
    rfl
  | case5 cursor hc hm =>
    rw [program_of_command_eq_none (hnone hc), mark?_relocate, hm]
    rfl
  | case6 cursor hc hm ih =>
    rw [program_of_command_eq_none (hnone hc), mark?_relocate, hm, ← ih, ← skipComment_relocate hf]
  | case7 cursor hc mark hfiller hstring hcomment hm ih =>
    rw [program_of_command_eq_none (hnone hc), mark?_relocate, hm, ← ih, ← Cursor.next_relocate hf]
    rcases skips_of_command_eq_none hc hm hfiller hstring hcomment with rfl | rfl <;> rfl

/-- Wherever a text stands, and however deep its fillers may nest, the same is read. -/
theorem atLevel_relocates (hf : Position.KeepsStep f) : ∀ n, (atLevel n).Relocates f
  | 0 => fun _ => rfl
  | n + 1 => fun cursor => program_relocate hf (atLevel_relocates hf n) cursor

end Reader

end Phrasebook
