import Phrasebook.Tree.Parser

/-! # A scan of the text

The ending of a text found without a tree: one pass over the characters with a stack of the
parentheses that are open.

* `Scan`, `Scan.step` — the state of the pass and what one character does to it.
* `Scan.run`, `Scan.ending`, `Scan.verdict` — the whole pass and what it says about the text.
* `Scan.Reaches` — the states on the way. What is ahead of a state has the verdict of the whole
  (`Scan.Reaches.verdict_eq`).
-/

namespace Phrasebook

namespace Scan

/-- What characters are taken for. -/
inductive Mode where
  | normal
  /-- In a comment, up to the end of the line. -/
  | comment
  /-- In a string that was opened at `opening` and holds `nesting` open braces of its own. -/
  | string (opening : Position) (nesting : Nat)
deriving DecidableEq, Repr

end Scan

/-- The state of a scan: where the next character stands, the parentheses that are open, the
    innermost first, and the backslash that the next character stands behind, if it does. -/
structure Scan where
  here : Position
  opened : List Position
  mode : Scan.Mode
  escape? : Option Position
deriving DecidableEq, Repr

namespace Scan

/-- The state in which characters have their usual meaning. -/
def normal (opened : List Position) (here : Position) : Scan := ⟨here, opened, .normal, none⟩

def start : Scan := normal [] .start

/-! ## One character -/

def stepNormal (scan : Scan) (c : Char) : Except SyntaxError Scan :=
  let next := { scan with here := scan.here.advance c }
  if c = '\\' then .ok { next with escape? := some scan.here }
  else if c = '(' then .ok { next with opened := scan.here :: scan.opened }
  else if c = ')' then
    match scan.opened with
    | [] => .error ⟨.unexpectedFillerClosure, scan.here, []⟩
    | _ :: opened => .ok { next with opened := opened }
  else if c = '{' then .ok { next with mode := .string scan.here 0 }
  else if c = '}' then .error ⟨.unexpectedStringClosure, scan.here, []⟩
  else if c = '|' then .ok { next with mode := .comment }
  else .ok next

def stepString (opening : Position) (nesting : Nat) (scan : Scan) (c : Char) : Scan :=
  let next := { scan with here := scan.here.advance c }
  if c = '\\' then { next with escape? := some scan.here }
  else if c = '{' then { next with mode := .string opening (nesting + 1) }
  else if c = '}' then
    match nesting with
    | 0 => { next with mode := .normal }
    | nesting + 1 => { next with mode := .string opening nesting }
  else next

def stepComment (scan : Scan) (c : Char) : Scan :=
  let next := { scan with here := scan.here.advance c }
  if c = '\n' then { next with mode := .normal } else next

/-- What the next character does. Behind a backslash it does nothing. -/
def step (scan : Scan) (c : Char) : Except SyntaxError Scan :=
  match scan.escape?, scan.mode with
  | some _, _ => .ok { scan with here := scan.here.advance c, escape? := none }
  | none, .normal => scan.stepNormal c
  | none, .comment => .ok (scan.stepComment c)
  | none, .string opening nesting => .ok (scan.stepString opening nesting c)

/-! ## All characters -/

/-- The state behind a text, unless an error stops the scan before. -/
def run (scan : Scan) (text : Text) : Except SyntaxError Scan := text.foldlM step scan

/-- What is said about a text that ends in the state. -/
def ending (scan : Scan) : Ending :=
  match scan.escape?, scan.mode, scan.opened with
  | some backslash, _, _ => .fatal ⟨.escapeAtEndOfInput, backslash, []⟩
  | none, .string opening _, _ => .needsMore ⟨.unclosedString, opening, []⟩
  | none, _, opening :: _ => .needsMore ⟨.unclosedFiller, opening, []⟩
  | none, _, [] => .clean

/-- What is said about a text that is ahead of the state. -/
def verdict (scan : Scan) (text : Text) : Ending :=
  match scan.run text with
  | .ok last => last.ending
  | .error e => .fatal e

theorem run_cons_of_ok {scan next : Scan} {c : Char} (h : scan.step c = .ok next) (text : Text) :
    scan.run (c :: text) = next.run text := by
  rw [run, List.foldlM_cons, h]
  rfl

theorem verdict_cons_of_error {scan : Scan} {c : Char} {e : SyntaxError}
    (h : scan.step c = .error e) (text : Text) : scan.verdict (c :: text) = .fatal e := by
  rw [verdict, run, List.foldlM_cons, h]
  rfl

/-! ## States on the way -/

/-- With `text` ahead of it the scan comes to another state and has `rest` ahead of it then. -/
inductive Reaches : Scan → Text → Scan → Text → Prop where
  | refl {scan : Scan} {text : Text} : Reaches scan text scan text
  | step {scan next last : Scan} {c : Char} {text rest : Text} :
      scan.step c = .ok next → Reaches next text last rest → Reaches scan (c :: text) last rest

theorem Reaches.single {scan next : Scan} {c : Char} (h : scan.step c = .ok next) (text : Text) :
    Reaches scan (c :: text) next text :=
  .step h .refl

theorem Reaches.trans {scan middle last : Scan} {text between rest : Text}
    (h : Reaches scan text middle between) (hl : Reaches middle between last rest) :
    Reaches scan text last rest := by
  induction h with
  | refl => exact hl
  | step hs _ ih => exact .step hs (ih hl)

/-- The states on the way are those behind the beginnings of the text. -/
theorem reaches_iff {scan last : Scan} {text rest : Text} :
    Reaches scan text last rest ↔ ∃ head, text = head ++ rest ∧ scan.run head = .ok last := by
  constructor
  · intro h
    induction h with
    | refl => exact ⟨[], rfl, rfl⟩
    | @step scan next last c text rest hs _ ih =>
      obtain ⟨head, rfl, hr⟩ := ih
      exact ⟨c :: head, rfl, by rw [run_cons_of_ok hs, hr]⟩
  · rintro ⟨head, rfl, hr⟩
    induction head generalizing scan with
    | nil =>
      cases hr
      exact .refl
    | cons c head ih =>
      cases hs : scan.step c with
      | error e =>
        rw [run, List.foldlM_cons, hs] at hr
        cases hr
      | ok next =>
        rw [run_cons_of_ok hs] at hr
        exact .step hs (ih hr)

/-- No state on the way changes the verdict. -/
theorem Reaches.verdict_eq {scan last : Scan} {text rest : Text}
    (h : Reaches scan text last rest) : scan.verdict text = last.verdict rest := by
  induction h with
  | refl => rfl
  | step hs _ ih => rw [verdict, run_cons_of_ok hs, ← ih, verdict]

/-! ## Depth -/

theorem step_opened_length_le {scan next : Scan} {c : Char} (h : scan.step c = .ok next) :
    next.opened.length ≤ scan.opened.length + 1 := by
  unfold step at h
  split at h
  · cases h
    exact Nat.le_succ _
  · unfold stepNormal at h
    grind
  · cases h
    unfold stepComment
    grind
  · cases h
    unfold stepString
    grind

/-- A character opens one parenthesis at most. -/
theorem Reaches.opened_length_le {scan last : Scan} {text rest : Text}
    (h : Reaches scan text last rest) :
    last.opened.length + rest.length ≤ scan.opened.length + text.length := by
  induction h with
  | refl => exact Nat.le_refl _
  | step hs _ ih =>
    have hstep := step_opened_length_le hs
    rw [List.length_cons]
    omega

end Scan

end Phrasebook
