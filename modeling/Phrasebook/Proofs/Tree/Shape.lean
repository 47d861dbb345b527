import Phrasebook.Tree.Basic

/-! # The shape of programs

* `Part.Every`, `Program.Every` — a property of all parts at every depth.
* `Part.Native` — no part that only an embedding program knows.
* `Program.nesting_append`, `Program.nesting_erase` — how deep fillers stand inside each other.
* `nestedFillers` — nothing but fillers inside each other.
* `Program.erase_eq_map`, `Program.length_eq_of_same`, `Program.same_append_iff` — programs up to
  positions, command by command.
-/

namespace Phrasebook

/-! ## All parts -/

mutual

/-- The part and all parts inside it have the property. -/
def Part.Every (P : Part → Prop) : Part → Prop
  | .filler content at? => P (.filler content at?) ∧ Program.Every P content
  | part => P part

def Part.AllEvery (P : Part → Prop) : List Part → Prop
  | [] => True
  | part :: parts => part.Every P ∧ Part.AllEvery P parts

def Command.Every (P : Part → Prop) : Command → Prop
  | .mk parts _ => Part.AllEvery P parts

def Program.Every (P : Part → Prop) : List Command → Prop
  | [] => True
  | command :: commands => command.Every P ∧ Program.Every P commands

end

section

variable {P Q : Part → Prop}

mutual

theorem Part.Every.imp (h : ∀ part, P part → Q part) : ∀ part : Part, part.Every P → part.Every Q
  | .word _ _, hp => h _ hp
  | .string _ _, hp => h _ hp
  | .filler content _, hp => ⟨h _ hp.1, Program.Every.imp h content hp.2⟩
  | .foreign _, hp => h _ hp

theorem Part.AllEvery.imp (h : ∀ part, P part → Q part) :
    ∀ parts : List Part, Part.AllEvery P parts → Part.AllEvery Q parts
  | [], _ => trivial
  | part :: parts, hp => ⟨Part.Every.imp h part hp.1, Part.AllEvery.imp h parts hp.2⟩

theorem Command.Every.imp (h : ∀ part, P part → Q part) :
    ∀ command : Command, command.Every P → command.Every Q
  | .mk parts _, hp => Part.AllEvery.imp h parts hp

/-- A property of all parts may be weakened. -/
theorem Program.Every.imp (h : ∀ part, P part → Q part) :
    ∀ program : List Command, Program.Every P program → Program.Every Q program
  | [], _ => trivial
  | command :: commands, hp =>
    ⟨Command.Every.imp h command hp.1, Program.Every.imp h commands hp.2⟩

end

theorem Program.Every.mem : ∀ {program : List Command}, Program.Every P program →
    ∀ command ∈ program, command.Every P
  | _ :: _, h, _, .head _ => h.1
  | _ :: _, h, _, .tail _ hmem => Program.Every.mem h.2 _ hmem

end

/-- The part is of one of the kinds that texts have words for. -/
def Part.Native : Part → Prop
  | .foreign _ => False
  | _ => True

/-! ## Depth -/

theorem Program.nesting_append (program other : List Command) :
    Program.nesting (program ++ other) = max (Program.nesting program) (Program.nesting other) := by
  induction program with
  | nil => simp [Program.nesting]
  | cons command commands ih => simp [Program.nesting, ih, Nat.max_assoc]

mutual

theorem Part.nesting_erase : ∀ part : Part, part.erase.nesting = part.nesting
  | .word _ _ | .string _ _ | .foreign _ => rfl
  | .filler content _ => by simp [Part.erase, Part.nesting, Program.nesting_erase content]

theorem Part.nestingAll_eraseAll : ∀ parts : List Part,
    Part.nestingAll (Part.eraseAll parts) = Part.nestingAll parts
  | [] => rfl
  | part :: parts => by
    simp [Part.eraseAll, Part.nestingAll, Part.nesting_erase part, Part.nestingAll_eraseAll parts]

theorem Command.nesting_erase : ∀ command : Command, command.erase.nesting = command.nesting
  | .mk parts _ => by simp [Command.erase, Command.nesting, Part.nestingAll_eraseAll parts]

/-- Forgetting positions keeps the depth. -/
theorem Program.nesting_erase : ∀ program : List Command,
    Program.nesting (Program.erase program) = Program.nesting program
  | [] => rfl
  | command :: commands => by
    simp [Program.erase, Program.nesting, Command.nesting_erase command,
      Program.nesting_erase commands]

end

/-- Fillers inside each other, the innermost one empty. -/
def nestedFillers : Nat → Program
  | 0 => []
  | n + 1 => [.mk [.filler (nestedFillers n) none] none]

namespace nestedFillers

theorem wellFormed : ∀ n, Program.WellFormed (nestedFillers n)
  | 0 => trivial
  | n + 1 => ⟨⟨List.cons_ne_nil _ _, wellFormed n, trivial⟩, trivial⟩

theorem every {P : Part → Prop} (h : ∀ content, P (.filler content none)) :
    ∀ n, Program.Every P (nestedFillers n)
  | 0 => trivial
  | n + 1 => ⟨⟨⟨h _, every h n⟩, trivial⟩, trivial⟩

theorem nesting_eq : ∀ n, Program.nesting (nestedFillers n) = n
  | 0 => rfl
  | n + 1 => by
    simp [nestedFillers, Program.nesting, Command.nesting, Part.nestingAll, Part.nesting,
      nesting_eq n]

end nestedFillers

/-! ## Commands up to positions -/

theorem Program.erase_eq_map (program : List Command) :
    Program.erase program = program.map Command.erase := by
  induction program with
  | nil => rfl
  | cons command commands ih => exact congrArg (command.erase :: ·) ih

theorem Program.length_eq_of_same {program other : Program}
    (h : Program.same program other = true) : program.length = other.length := by
  have hlength := congrArg List.length ((Program.same_iff program other).1 h)
  rwa [erase_eq_map, erase_eq_map, List.length_map, List.length_map] at hlength

theorem Program.same_append_iff (program : Program) {rest other : Program} :
    Program.same (program ++ rest) (program ++ other) = true ↔ Program.same rest other = true := by
  simp only [Program.same_iff, erase_eq_map, List.map_append, List.append_cancel_left_eq]

end Phrasebook
