import Phrasebook.Proofs.Reader.Places
import Phrasebook.Proofs.Scan.Verdict

/-! # The characters that errors are blamed on

Every error about a text stands at the character that is to blame for it.

* `SyntaxError.Cause.culprit?` — the character that a cause is about.
* `SyntaxError.Blames` — errors that stand at such a character of a text.
* `Scan.Keeps` — the invariant: each place that a scan has kept is a place of the text at which the
  character stands that it was kept for.
* `blames_of_parse` — whatever is wrong with a text, its error is blamed on a character of it.
-/

namespace Phrasebook

/-- The character that the cause is about: the closing one that closes nothing, the opening one that
    is not closed, or the backslash with nothing to escape. -/
def SyntaxError.Cause.culprit? : Cause → Option Char
  | unspecified => none
  | escapeAtEndOfInput => some '\\'
  | unclosedString => some '{'
  | unclosedFiller => some '('
  | unexpectedStringClosure => some '\x7d'
  | unexpectedFillerClosure => some ')'

/-- The character stands at the place in the text. -/
def Position.Holds (text : Text) (here : Position) (c : Char) : Prop :=
  ∃ rest, here.Marks text (c :: rest)

/-- The error is worded as usual and stands at a character of the text that its cause is about. -/
structure SyntaxError.Blames (text : Text) (e : SyntaxError) : Prop where
  remark_eq : e.remark = []
  holds : ∃ culprit, e.cause.culprit? = some culprit ∧ e.position.Holds text culprit

namespace Scan

variable {text rest : Text} {scan next : Scan}

/-- The place that the mode has kept holds an opening brace. -/
def Mode.Keeps (text : Text) : Mode → Prop
  | .string opening _ => opening.Holds text '{'
  | _ => True

/-- The scan is at a place in the text with `rest` ahead of it, and the places it has kept hold
    the characters they were kept for. -/
structure Keeps (text rest : Text) (scan : Scan) : Prop where
  here : scan.here.Marks text rest
  opened : ∀ opening ∈ scan.opened, opening.Holds text '('
  mode : scan.mode.Keeps text
  escape : ∀ backslash, scan.escape? = some backslash → backslash.Holds text '\\'

theorem keeps_start (text : Text) : start.Keeps text text :=
  ⟨Position.marks_start text, nofun, trivial, nofun⟩

theorem Keeps.holds {c : Char} (h : scan.Keeps text (c :: rest)) : scan.here.Holds text c :=
  ⟨rest, h.here⟩

/-! ## One character -/

/-- What one character may do: the scan goes on and keeps to the text, or it stops with an error
    that is blamed on a character of the text. -/
def Accounts (text rest : Text) : Except SyntaxError Scan → Prop
  | .ok next => next.Keeps text rest
  | .error e => e.Blames text

section Step

variable {c : Char} (h : scan.Keeps text (c :: rest))
include h

/-- The next character is passed over. -/
theorem Keeps.advance : Keeps text rest { scan with here := scan.here.advance c } :=
  ⟨h.here.advance, h.opened, h.mode, h.escape⟩

theorem Keeps.withMode {mode : Mode} (hm : mode.Keeps text) :
    Keeps text rest { scan with here := scan.here.advance c, mode } :=
  ⟨h.here.advance, h.opened, hm, h.escape⟩

/-- The place of a backslash is kept for the character behind it. -/
theorem Keeps.escapeNext (hc : c = '\\') :
    Keeps text rest { scan with here := scan.here.advance c, escape? := some scan.here } := by
  subst hc
  refine ⟨h.here.advance, h.opened, h.mode, ?_⟩
  rintro _ ⟨⟩
  exact h.holds

theorem Keeps.stepNormal : Accounts text rest (scan.stepNormal c) := by
  unfold Scan.stepNormal
  split
  · next hc => exact h.escapeNext hc
  split
  · next hc => exact { h.advance with opened := List.forall_mem_cons.2 ⟨hc ▸ h.holds, h.opened⟩ }
  split
  · next hc =>
    split
    · exact ⟨rfl, _, rfl, hc ▸ h.holds⟩
    · next opening opened ho =>
      have hopened := List.forall_mem_cons.1 (ho ▸ h.opened)
      exact { h.advance with opened := hopened.2 }
  split
  · next hc =>
    have hholds : scan.here.Holds text '{' := hc ▸ h.holds
    exact h.withMode hholds
  split
  · next hc => exact ⟨rfl, _, rfl, hc ▸ h.holds⟩
  split
  · exact h.withMode trivial
  · exact h.advance

theorem Keeps.stepString {opening : Position} (hm : opening.Holds text '{') (nesting : Nat) :
    (scan.stepString opening nesting c).Keeps text rest := by
  unfold Scan.stepString
  split
  · next hc => exact h.escapeNext hc
  split
  · exact h.withMode hm
  split
  · cases nesting with
    | zero => exact h.withMode trivial
    | succ nesting => exact h.withMode hm
  · exact h.advance

theorem Keeps.stepComment : (scan.stepComment c).Keeps text rest := by
  unfold Scan.stepComment
  split
  · exact h.withMode trivial
  · exact h.advance

theorem Keeps.step : Accounts text rest (scan.step c) := by
  unfold Scan.step
  split
  · exact { h.advance with escape := nofun }
  · exact h.stepNormal
  · exact h.stepComment
  · next opening nesting _ hmode =>
    have hm : opening.Holds text '{' := by
      have hkept := h.mode
      rwa [hmode] at hkept
    exact h.stepString hm nesting

end Step

/-! ## All characters -/

/-- At the end of the text, what is still open is to blame. -/
theorem Keeps.blames_of_ending (h : scan.Keeps text rest) {e : SyntaxError}
    (he : scan.ending.error? = some e) : e.Blames text := by
  unfold ending at he
  split at he
  · next backslash hescape =>
    cases he
    exact ⟨rfl, _, rfl, h.escape backslash hescape⟩
  · next opening _ _ hmode =>
    cases he
    have hkept := h.mode
    rw [hmode] at hkept
    exact ⟨rfl, _, rfl, hkept⟩
  · next opening opened _ hopened _ =>
    cases he
    exact ⟨rfl, _, rfl, h.opened opening (hopened ▸ List.mem_cons_self)⟩
  · cases he

/-- The invariant carried over the characters ahead, up to one that stops the scan. -/
theorem Keeps.blames_of_verdict (h : scan.Keeps text rest) {e : SyntaxError}
    (he : (scan.verdict rest).error? = some e) : e.Blames text := by
  induction rest generalizing scan with
  | nil => exact h.blames_of_ending he
  | cons c rest ih =>
    have hstep := h.step
    cases hs : scan.step c with
    | error other =>
      rw [verdict_cons_of_error hs] at he
      cases he
      rwa [hs] at hstep
    | ok next =>
      rw [(Reaches.single hs rest).verdict_eq] at he
      rw [hs] at hstep
      exact ih hstep he

end Scan

theorem blames_of_parse [CallStack] {text : Text} {read : Parse} (h : parse text = .ok read)
    {e : SyntaxError} (he : read.ending.error? = some e) : e.Blames text := by
  rw [ending_eq_verdict h] at he
  exact (Scan.keeps_start text).blames_of_verdict he

end Phrasebook
