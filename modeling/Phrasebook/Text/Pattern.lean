import Phrasebook.Text.Basic

/-! # Regular patterns

Regular expressions over characters, matched by derivatives: what is left to match after a
character is again a pattern.

* `Pattern` — the expressions, with a few derived forms (`literal`, `optional`, `plus`, `anyOf`).
* `Pattern.derive` — the pattern of the rests of the words that begin with a character.
* `Pattern.accepts` — whether a whole text matches.
-/

namespace Phrasebook

inductive Pattern where
  | never
  | empty
  | one (accepted : Char → Bool)
  | seq (first second : Pattern)
  | either (first second : Pattern)
  | star (item : Pattern)

namespace Pattern

def nullable : Pattern → Bool
  | never => false
  | empty => true
  | one _ => false
  | seq p q => p.nullable && q.nullable
  | either p q => p.nullable || q.nullable
  | star _ => true

/-- A sequence, simplified where its first pattern allows it. -/
def andThen : Pattern → Pattern → Pattern
  | never, _ => never
  | empty, q => q
  | p, q => seq p q

/-- A choice, simplified where one of its patterns matches nothing. -/
def orElse : Pattern → Pattern → Pattern
  | never, q => q
  | p, never => p
  | p, q => either p q

/-- The rests of the matching texts that begin with `c`. -/
def derive (c : Char) : Pattern → Pattern
  | never => never
  | empty => never
  | one accepted => if accepted c then empty else never
  | seq p q =>
    if p.nullable then ((p.derive c).andThen q).orElse (q.derive c) else (p.derive c).andThen q
  | either p q => (p.derive c).orElse (q.derive c)
  | star p => (p.derive c).andThen (star p)

def accepts (p : Pattern) (text : Text) : Bool := (text.foldl (fun p c => p.derive c) p).nullable

/-! ## Derived forms -/

def oneOf (chars : Text) : Pattern := one chars.contains

def literal (text : Text) : Pattern := text.foldr (fun c p => seq (one (· == c)) p) empty

def optional (p : Pattern) : Pattern := either empty p

def plus (p : Pattern) : Pattern := seq p (star p)

def anyOf (patterns : List Pattern) : Pattern := patterns.foldr either never

def anyText (texts : List Text) : Pattern := anyOf (texts.map literal)

def inOrder (patterns : List Pattern) : Pattern := patterns.foldr seq empty

def times (n : Nat) (p : Pattern) : Pattern := inOrder (List.replicate n p)

@[simp] theorem accepts_nil (p : Pattern) : p.accepts [] = p.nullable := rfl

@[simp] theorem accepts_cons (p : Pattern) (c : Char) (rest : Text) :
    p.accepts (c :: rest) = (p.derive c).accepts rest := rfl

end Pattern

end Phrasebook
