import Phrasebook.Proofs.Evaluation.Alike
import Phrasebook.Proofs.Grammar.Continuation
import Phrasebook.Proofs.Session.Joining

/-! # Scripts that are spelled differently

How a script is laid out, and which letters of its words are capitals, makes no difference to what
it does.

* `Session.runProgram_alike` — programs that are alike.
* `Session.run_of_spells` — a script runs as the program that it spells.
* `respelled_runs_alike` — programs that are alike, and scripts that spell them.
-/

namespace Phrasebook

section

variable {host : Host} [CallStack]

namespace Session

theorem runProgram_alike {program other : Program} (h : Program.Alike program other)
    (session : Session host) : session.runProgram program = session.runProgram other := by
  have hsame : (evaluate session.maxDepth 0 program userFrame : host.Eval Output)
      = evaluate session.maxDepth 0 other userFrame :=
    evaluate_alike session.maxDepth 0 0 h userFrame
  unfold runProgram
  rw [hsame]

/-- Of a script only the program that it spells is run. -/
theorem run_of_spells {source : Text} {program : Program} (h : Spells source program)
    (hnesting : Program.nesting program < nestingLimit) (session : Session host)
    (allowIncomplete : Bool) :
    session.run source allowIncomplete
      = { session with state := session.state.cleared }.runProgram program := by
  obtain ⟨read, hread, herase⟩ := parse_of_spells h hnesting
  rw [run_of_parse hread]
  -- What is read differs from the program in positions, and programs that do are alike.
  exact runProgram_alike (.of_same ((Program.same_iff _ _).2 herase)) _

end Session

/-- Programs with the same strings, and with words that are the same in lower case, are evaluated
    alike wherever they stand in a text: in every scope and from every state come the same output,
    or the same fault, and the same frames and effects. So scripts that spell such programs, however
    they are laid out, have the same report and leave the same session. -/
theorem respelled_runs_alike {program other : Program} (h : Program.Alike program other) :
    (∀ (host : Host) (maxDepth : Int) (calls : Nat) (scope : FrameId) (state : host.State),
      evaluate maxDepth calls program scope state = evaluate maxDepth calls other scope state)
    ∧ ∀ source source' : Text, Spells source program → Spells source' other →
      Program.nesting program < nestingLimit →
      ∀ (host : Host) (session : Session host) (allow allow' : Bool),
        session.run source allow = session.run source' allow' := by
  constructor
  · intro host maxDepth calls scope state
    exact congrFun (evaluate_alike maxDepth calls calls h scope) state
  · intro source source' hspells hspells' hnesting host session allow allow'
    rw [Session.run_of_spells hspells hnesting,
      Session.run_of_spells hspells' (h.nesting_eq ▸ hnesting)]
    exact Session.runProgram_alike h _

end

open StandardStack

/-- A name in capitals that ends in a sigma, looked up in a filler, and the same in small letters,
    escaped, with comments and on more lines. -/
theorem respelled_runs_alike_of_sigma :
    let capitals : Text := ['\u0391', '\u03A3']
    let small : Text := ['\u03B1', '\u03C2']
    let program : Program := [.mk [.word "PRINT".toList none, .filler
      [.mk [.word capitals none] none, .mk [.word "x".toList none] none] none] none]
    let other : Program := [.mk [.word "print".toList none, .filler
      [.mk [.word small none] none, .mk [.word "X".toList none] none] none] none]
    let source : Text := "PRINT(".toList ++ capitals ++ ";x)".toList
    let source' : Text := "\np\\rint ( | two\n".toList ++ small ++ "\nX )".toList
    (Program.Alike program other ∧ Spells source program ∧ Spells source' other)
      ∧ ∀ session : Session Host.alone, session.run source false = session.run source' false := by
  intro capitals small program other source source'
  have halike : Program.Alike program other :=
    .cons (.mk (.cons (.word (by decide +kernel)) (.cons (.filler
      (.cons (.mk (.cons (.word (by decide +kernel)) .nil))
        (.cons (.mk (.cons (.word (by decide +kernel)) .nil)) .nil))) .nil))) .nil
  have hspells : ∀ text spelled,
      (parse text).toOption.map (fun read => (Program.same read.program spelled, read.ending))
        = some (true, .clean) → Spells text spelled := by
    intro text spelled hlook
    obtain ⟨⟨read, ending⟩, hread, hseen⟩ := except_eq_ok_of_map hlook
    obtain ⟨hsame, rfl⟩ := Prod.mk.inj hseen
    exact (spells_of_parse hread).1.of_same hsame
  have hsource : Spells source program := hspells source program (by decide +kernel)
  have hsource' : Spells source' other := hspells source' other (by decide +kernel)
  obtain ⟨-, hruns⟩ := respelled_runs_alike halike
  exact ⟨⟨halike, hsource, hsource'⟩, fun session =>
    hruns source source' hsource hsource' (by decide +kernel) Host.alone session false false⟩

end Phrasebook
