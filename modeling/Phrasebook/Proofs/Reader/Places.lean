import Phrasebook.Proofs.Grammar.Spelling
import Phrasebook.Proofs.Reader.Steps

/-! # Places in a text

What a position says about a text, and what the positions in a program say about the text that it
comes from.

* `Position.Marks` — a place in a text, and what the text goes on with from there.
* `Cursor.On` — cursors that keep to such places.
* `Program.inOrder`, `Program.commands` — all parts of a program, in the order of the text, and all
  its commands.
* `Part.Located`, `Command.Located` — parts and commands that say where they begin.
* `Part.Spread` — parts that stand in a stretch of the text, one behind the beginning of the other.
-/

namespace Phrasebook

/-! ## Places in a text -/

namespace Position

/-- The position is a place in the text, in its row and its column, and `rest` is what the text goes
    on with from there. -/
structure Marks (here : Position) (text rest : Text) : Prop where
  locate_eq : here = locate text here.offset
  drop_eq : text.drop here.offset.toNat = rest

variable {here : Position} {text rest : Text}

theorem marks_after (head rest : Text) : (after head).Marks (head ++ rest) rest := by
  have hoffset : (after head).offset.toNat = head.length := Int.toNat_natCast _
  constructor
  · rw [locate, hoffset, List.take_left]
  · rw [hoffset, List.drop_left]

theorem Marks.exists_head (h : here.Marks text rest) :
    ∃ head, text = head ++ rest ∧ here = after head :=
  ⟨text.take here.offset.toNat, h.drop_eq ▸ (List.take_append_drop _ _).symm, h.locate_eq⟩

theorem marks_start (text : Text) : start.Marks text text := marks_after [] text

/-- To advance over the text is to come to another place in it. -/
theorem Marks.advanceOver {taken : Text} (h : here.Marks text (taken ++ rest)) :
    (here.advanceOver taken).Marks text rest := by
  obtain ⟨head, rfl, rfl⟩ := h.exists_head
  rw [← after_append, ← List.append_assoc]
  exact marks_after _ rest

theorem Marks.advance {c : Char} (h : here.Marks text (c :: rest)) :
    (here.advance c).Marks text rest :=
  @Marks.advanceOver here text rest [c] h

/-- The text is divided at the place. -/
theorem Marks.offset_eq (h : here.Marks text rest) : here.offset + rest.length = text.length := by
  obtain ⟨head, rfl, rfl⟩ := h.exists_head
  simp [after]

end Position

/-- A cursor is at a place in the text. -/
def Cursor.On (text : Text) (cursor : Cursor) : Prop := cursor.position.Marks text cursor.rest

namespace Cursor.On

variable {text : Text} {cursor after : Cursor}

theorem next (h : cursor.On text) : cursor.next.On text := by
  obtain ⟨here, rest⟩ := cursor
  cases rest with
  | nil => exact h
  | cons c rest => exact h.advance

theorem skipWhile (h : cursor.On text) (p : Char → Bool) : (cursor.skipWhile p).On text := by
  have hsplit : cursor.rest.takeWhile p ++ cursor.rest.dropWhile p = cursor.rest :=
    List.takeWhile_append_dropWhile
  have hhere : cursor.position.Marks text (cursor.rest.takeWhile p ++ cursor.rest.dropWhile p) :=
    hsplit.symm ▸ h
  exact hhere.advanceOver

theorem skipComment (h : cursor.On text) : (Reader.skipComment cursor).On text :=
  h.next.skipWhile _

/-- The less is left of the text, the further on is the place. -/
theorem offset_lt (h : cursor.On text) (ha : after.On text)
    (hlt : after.rest.length < cursor.rest.length) :
    cursor.position.offset < after.position.offset := by
  have hhere := Position.Marks.offset_eq h
  have hthere := Position.Marks.offset_eq ha
  omega

theorem offset_le (h : cursor.On text) (ha : after.On text)
    (hle : after.rest.length ≤ cursor.rest.length) :
    cursor.position.offset ≤ after.position.offset := by
  have hhere := Position.Marks.offset_eq h
  have hthere := Position.Marks.offset_eq ha
  omega

theorem offset_le_next (h : cursor.On text) :
    cursor.position.offset ≤ cursor.next.position.offset :=
  h.offset_le h.next (Cursor.next_rest_length_le cursor)

theorem offset_le_length (h : cursor.On text) : cursor.position.offset ≤ text.length := by
  have hhere := Position.Marks.offset_eq h
  omega

end Cursor.On

/-! ## Trees -/

mutual

/-- The part and all parts inside it, in the order in which they begin. -/
def Part.inOrder : Part → List Part
  | .filler content at? => .filler content at? :: Program.inOrder content
  | part => [part]

def Part.allInOrder : List Part → List Part
  | [] => []
  | part :: parts => part.inOrder ++ Part.allInOrder parts

def Command.inOrder : Command → List Part
  | .mk parts _ => Part.allInOrder parts

def Program.inOrder : List Command → List Part
  | [] => []
  | command :: commands => command.inOrder ++ Program.inOrder commands

end

/-- The commands inside a filler. -/
def Part.content : Part → Program
  | .filler content _ => content
  | _ => []

/-- The commands of the program and those inside its fillers at every depth. -/
def Program.commands (program : Program) : List Command :=
  program ++ (Program.inOrder program).flatMap Part.content

/-- The command says where it begins: where its first part does, at a place in the text. -/
def Command.Located (text : Text) (command : Command) : Prop :=
  ∃ first rest here, command.parts = first :: rest ∧ first.position? = some here
    ∧ command.position? = some here ∧ here = Position.locate text here.offset

/-- The part says where it begins, and that is a place in the text from which the text goes on with
    the part: with a spelling of a word, up to the end of the word; with a string in its braces; or
    with the parenthesis that opens a filler, in which all commands are located. -/
inductive Part.Located (text : Text) : Part → Prop where
  | word {here : Position} {word spelling rest : Text} : here.Marks text (spelling ++ rest) →
      SpellsWord spelling word → EndsWord rest → Part.Located text (.word word (some here))
  | string {here : Position} {content rest : Text} : here.Marks text (content.braced ++ rest) →
      Part.Located text (.string content (some here))
  | filler {here : Position} {content : List Command} {rest : Text} :
      here.Marks text ('(' :: rest) → (∀ command ∈ content, command.Located text) →
      Part.Located text (.filler content (some here))

/-- The part begins before the other one does. -/
def Part.Before (part other : Part) : Prop :=
  ∃ here there, part.position? = some here ∧ other.position? = some there
    ∧ here.offset < there.offset

/-- The parts are located, begin between the two offsets, and each begins before the next. -/
structure Part.Spread (text : Text) (lo hi : Int) (parts : List Part) : Prop where
  le : lo ≤ hi
  located : ∀ part ∈ parts, part.Located text
  within : ∀ part ∈ parts, ∃ here, part.position? = some here ∧ lo ≤ here.offset ∧ here.offset < hi
  ordered : parts.Pairwise Part.Before

namespace Part.Spread

variable {text : Text} {lo lo' mid hi hi' : Int} {parts others : List Part}

theorem nil (h : lo ≤ hi) : Spread text lo hi [] := ⟨h, nofun, nofun, .nil⟩

theorem singleton {part : Part} {here : Position} (h : part.Located text)
    (hp : part.position? = some here) (hlt : here.offset < hi) :
    Spread text here.offset hi [part] := by
  refine ⟨Int.le_of_lt hlt, ?_, ?_, List.pairwise_singleton _ _⟩
  · simpa using h
  · simpa using ⟨here, hp, Int.le_refl _, hlt⟩

theorem mono (h : Spread text lo hi parts) (hlo : lo' ≤ lo) (hhi : hi ≤ hi') :
    Spread text lo' hi' parts := by
  refine ⟨by have := h.le; omega, h.located, fun part hpart => ?_, h.ordered⟩
  obtain ⟨here, hp, hfrom, hto⟩ := h.within part hpart
  exact ⟨here, hp, Int.le_trans hlo hfrom, Int.lt_of_lt_of_le hto hhi⟩

/-- One stretch behind another. -/
theorem append (h : Spread text lo mid parts) (ho : Spread text mid hi others) :
    Spread text lo hi (parts ++ others) := by
  have hparts := h.mono (Int.le_refl lo) ho.le
  have hothers := ho.mono h.le (Int.le_refl hi)
  refine ⟨hparts.le, ?_, ?_, List.pairwise_append.2 ⟨h.ordered, ho.ordered, ?_⟩⟩
  · exact List.forall_mem_append.2 ⟨hparts.located, hothers.located⟩
  · exact List.forall_mem_append.2 ⟨hparts.within, hothers.within⟩
  · intro part hpart other hother
    obtain ⟨here, hp, -, hto⟩ := h.within part hpart
    obtain ⟨there, hp', hfrom, -⟩ := ho.within other hother
    exact ⟨here, there, hp, hp', Int.lt_of_lt_of_le hto hfrom⟩

end Part.Spread

end Phrasebook
