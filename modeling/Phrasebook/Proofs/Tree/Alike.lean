import Phrasebook.Proofs.Tree.Shape
import Phrasebook.Text.Lowercase

/-! # Programs that mean the same everywhere

Programs are alike if they have the same shape, the same strings, and words that do not differ in
lower case. Positions do not matter.

* `Part.Alike`, `Part.AllAlike`, `Command.Alike`, `Program.Alike` — the relation.
* `Program.Alike.of_same`, `Program.Alike.refl` — programs that differ in positions only.
* `Program.Alike.nesting_eq` — fillers are nested as deep in one as in the other.
-/

namespace Phrasebook

mutual

/-- The parts look the same to everything that looks keys up. -/
inductive Part.Alike : Part → Part → Prop where
  | word {text other : Text} {at? at?' : Option Position} :
      text.lower = other.lower → Part.Alike (.word text at?) (.word other at?')
  | string {text : Text} {at? at?' : Option Position} :
      Part.Alike (.string text at?) (.string text at?')
  | filler {content other : List Command} {at? at?' : Option Position} :
      Program.Alike content other → Part.Alike (.filler content at?) (.filler other at?')
  | foreign {label : Text} : Part.Alike (.foreign label) (.foreign label)

inductive Part.AllAlike : List Part → List Part → Prop where
  | nil : Part.AllAlike [] []
  | cons {part other : Part} {parts others : List Part} :
      Part.Alike part other → Part.AllAlike parts others →
      Part.AllAlike (part :: parts) (other :: others)

inductive Command.Alike : Command → Command → Prop where
  | mk {parts others : List Part} {at? at?' : Option Position} :
      Part.AllAlike parts others → Command.Alike (.mk parts at?) (.mk others at?')

inductive Program.Alike : List Command → List Command → Prop where
  | nil : Program.Alike [] []
  | cons {command other : Command} {commands others : List Command} :
      Command.Alike command other → Program.Alike commands others →
      Program.Alike (command :: commands) (other :: others)

end

mutual

theorem Part.Alike.of_same : ∀ {part other : Part}, part.same other = true → part.Alike other
  | .word text at?, other, h => by
    cases other with
    | word other at?' =>
      rw [Part.same, beq_iff_eq] at h
      exact .word (congrArg Text.lower h)
    | _ => simp [Part.same] at h
  | .string text at?, other, h => by
    cases other with
    | string other at?' =>
      rw [Part.same, beq_iff_eq] at h
      exact h ▸ .string
    | _ => simp [Part.same] at h
  | .filler content at?, other, h => by
    cases other with
    | filler other at?' =>
      rw [Part.same] at h
      exact .filler (Program.Alike.of_same h)
    | _ => simp [Part.same] at h
  | .foreign label, other, h => by
    cases other with
    | foreign other =>
      rw [Part.same, beq_iff_eq] at h
      exact h ▸ .foreign
    | _ => simp [Part.same] at h

theorem Part.AllAlike.of_same : ∀ {parts others : List Part},
    Part.allSame parts others = true → Part.AllAlike parts others
  | [], others, h => by
    cases others with
    | nil => exact .nil
    | cons other others => simp [Part.allSame] at h
  | part :: parts, others, h => by
    cases others with
    | nil => simp [Part.allSame] at h
    | cons other others =>
      rw [Part.allSame, Bool.and_eq_true] at h
      exact .cons (Part.Alike.of_same h.1) (Part.AllAlike.of_same h.2)

theorem Command.Alike.of_same : ∀ {command other : Command},
    command.same other = true → command.Alike other
  | .mk parts at?, .mk others at?', h => by
    rw [Command.same] at h
    exact .mk (Part.AllAlike.of_same h)

/-- Programs that nothing but positions tells apart are alike. -/
theorem Program.Alike.of_same : ∀ {commands others : List Command},
    Program.same commands others = true → Program.Alike commands others
  | [], others, h => by
    cases others with
    | nil => exact .nil
    | cons other others => simp [Program.same] at h
  | command :: commands, others, h => by
    cases others with
    | nil => simp [Program.same] at h
    | cons other others =>
      rw [Program.same, Bool.and_eq_true] at h
      exact .cons (Command.Alike.of_same h.1) (Program.Alike.of_same h.2)

end

theorem Program.Alike.refl (program : Program) : Program.Alike program program :=
  .of_same ((Program.same_iff _ _).2 rfl)

mutual

theorem Part.Alike.nesting_eq : ∀ {part other : Part}, part.Alike other →
    part.nesting = other.nesting
  | _, _, .word _ => rfl
  | _, _, .string => rfl
  | _, _, .filler hcontent => congrArg (· + 1) hcontent.nesting_eq
  | _, _, .foreign => rfl

theorem Part.AllAlike.nesting_eq : ∀ {parts others : List Part}, Part.AllAlike parts others →
    Part.nestingAll parts = Part.nestingAll others
  | _, _, .nil => rfl
  | _, _, .cons hpart hrest => by
    rw [Part.nestingAll, Part.nestingAll, hpart.nesting_eq, hrest.nesting_eq]

theorem Command.Alike.nesting_eq : ∀ {command other : Command}, command.Alike other →
    command.nesting = other.nesting
  | _, _, .mk hparts => hparts.nesting_eq

theorem Program.Alike.nesting_eq : ∀ {commands others : List Command},
    Program.Alike commands others → Program.nesting commands = Program.nesting others
  | _, _, .nil => rfl
  | _, _, .cons hcommand hrest => by
    rw [Program.nesting, Program.nesting, hcommand.nesting_eq, hrest.nesting_eq]

end

end Phrasebook
