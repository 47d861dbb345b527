import Phrasebook.Position

/-! # Programs

The tree that a program text stands for.

* `Part`, `Command`, `Program` — a program is a list of commands, a command a list of parts, and a
  filler among the parts holds a program of its own.
* `Part.word?`, `Command.ofParts?` — the checked ways to build a word and a command.
* `Part.WellFormed`, `Program.WellFormed` — words and commands are never empty.
* `Part.nesting`, `Program.nesting` — how deep fillers stand inside each other.
* `Part.same`, `Program.same` — equality that does not look at positions, and `erase`, which
  forgets them.
-/

namespace Phrasebook

mutual

/-- A piece of a command. Parts that come from a text know where they begin. -/
inductive Part where
  | word (text : Text) (at? : Option Position)
  | string (text : Text) (at? : Option Position)
  /-- A program in parentheses, whose last value becomes an argument. -/
  | filler (content : List Command) (at? : Option Position)
  /-- A part of a kind that only the embedding program knows, under the label it goes by. -/
  | foreign (label : Text)

/-- A sequence of parts, tagged with where it begins. -/
inductive Command where
  | mk (parts : List Part) (at? : Option Position)

end

abbrev Program := List Command

/-! ## Building -/

inductive TreeError where
  | emptyWord
  | emptyCommand
deriving DecidableEq, Repr

def TreeError.message : TreeError → Text
  | emptyWord => "Word must not be empty.".toList
  | emptyCommand => "Command must have at least one part.".toList

namespace Part

def position? : Part → Option Position
  | word _ at? => at?
  | string _ at? => at?
  | filler _ at? => at?
  | foreign _ => none

def isWord : Part → Bool
  | word _ _ => true
  | _ => false

def word? (text : Text) (at? : Option Position) : Except TreeError Part :=
  if text.isEmpty then .error .emptyWord else .ok (word text at?)

end Part

namespace Command

def parts : Command → List Part
  | mk parts _ => parts

def position? : Command → Option Position
  | mk _ at? => at?

/-- A command of the given parts, of which there must be one at least. Without a position of its
    own it begins where its first part does. -/
def ofParts? (parts : List Part) (at? : Option Position) : Except TreeError Command :=
  match parts with
  | [] => .error .emptyCommand
  | first :: _ => .ok (mk parts (at? <|> first.position?))

@[simp] theorem parts_mk (parts : List Part) (at? : Option Position) :
    (mk parts at?).parts = parts := rfl

@[simp] theorem position?_mk (parts : List Part) (at? : Option Position) :
    (mk parts at?).position? = at? := rfl

end Command

/-! ## Well-formed trees -/

mutual

/-- No word in the part is empty, and no command. -/
def Part.WellFormed : Part → Prop
  | .word text _ => text ≠ []
  | .string _ _ => True
  | .filler content _ => Program.WellFormed content
  | .foreign _ => True

def Part.AllWellFormed : List Part → Prop
  | [] => True
  | part :: parts => part.WellFormed ∧ Part.AllWellFormed parts

def Command.WellFormed : Command → Prop
  | .mk parts _ => parts ≠ [] ∧ Part.AllWellFormed parts

def Program.WellFormed : List Command → Prop
  | [] => True
  | command :: commands => command.WellFormed ∧ Program.WellFormed commands

end

/-! ## Depth -/

mutual

/-- How many fillers stand inside each other in the part, itself included. -/
def Part.nesting : Part → Nat
  | .filler content _ => Program.nesting content + 1
  | _ => 0

def Part.nestingAll : List Part → Nat
  | [] => 0
  | part :: parts => max part.nesting (Part.nestingAll parts)

def Command.nesting : Command → Nat
  | .mk parts _ => Part.nestingAll parts

/-- How many fillers stand inside each other in the program. -/
def Program.nesting : List Command → Nat
  | [] => 0
  | command :: commands => max command.nesting (Program.nesting commands)

end

/-! ## Forgetting positions -/

mutual

def Part.erase : Part → Part
  | .word text _ => .word text none
  | .string text _ => .string text none
  | .filler content _ => .filler (Program.erase content) none
  | .foreign label => .foreign label

def Part.eraseAll : List Part → List Part
  | [] => []
  | part :: parts => part.erase :: Part.eraseAll parts

def Command.erase : Command → Command
  | .mk parts _ => .mk (Part.eraseAll parts) none

def Program.erase : List Command → List Command
  | [] => []
  | command :: commands => command.erase :: Program.erase commands

end

/-! ## Equality up to positions -/

mutual

def Part.same : Part → Part → Bool
  | .word s _, .word t _ => s == t
  | .string s _, .string t _ => s == t
  | .filler p _, .filler q _ => Program.same p q
  | .foreign s, .foreign t => s == t
  | _, _ => false

def Part.allSame : List Part → List Part → Bool
  | [], [] => true
  | p :: ps, q :: qs => p.same q && Part.allSame ps qs
  | _, _ => false

def Command.same : Command → Command → Bool
  | .mk ps _, .mk qs _ => Part.allSame ps qs

def Program.same : List Command → List Command → Bool
  | [], [] => true
  | c :: cs, d :: ds => c.same d && Program.same cs ds
  | _, _ => false

end

mutual

/-- Parts are the same exactly if nothing but positions tells them apart. -/
theorem Part.same_iff : ∀ p q : Part, p.same q = true ↔ p.erase = q.erase
  | .word _ _, q => by cases q <;> simp [Part.same, Part.erase]
  | .string _ _, q => by cases q <;> simp [Part.same, Part.erase]
  | .filler p _, q => by
    cases q with
    | filler q _ => simp [Part.same, Part.erase, Program.same_iff p q]
    | _ => simp [Part.same, Part.erase]
  | .foreign _, q => by cases q <;> simp [Part.same, Part.erase]

theorem Part.allSame_iff : ∀ ps qs : List Part,
    Part.allSame ps qs = true ↔ Part.eraseAll ps = Part.eraseAll qs
  | [], qs => by cases qs <;> simp [Part.allSame, Part.eraseAll]
  | p :: ps, qs => by
    cases qs with
    | nil => simp [Part.allSame, Part.eraseAll]
    | cons q qs => simp [Part.allSame, Part.eraseAll, Part.same_iff p q, Part.allSame_iff ps qs]

theorem Command.same_iff : ∀ c d : Command, c.same d = true ↔ c.erase = d.erase
  | .mk ps _, .mk qs _ => by simp [Command.same, Command.erase, Part.allSame_iff ps qs]

/-- Programs are the same exactly if nothing but positions tells them apart. -/
theorem Program.same_iff : ∀ p q : List Command,
    Program.same p q = true ↔ Program.erase p = Program.erase q
  | [], q => by cases q <;> simp [Program.same, Program.erase]
  | c :: cs, q => by
    cases q with
    | nil => simp [Program.same, Program.erase]
    | cons d ds =>
      simp [Program.same, Program.erase, Command.same_iff c d, Program.same_iff cs ds]

end

instance : BEq Part := ⟨Part.same⟩

instance : BEq Command := ⟨Command.same⟩

end Phrasebook
