import Phrasebook.Proofs.Grammar.Quotation
import Phrasebook.Proofs.Session.Reports

/-! # The values of a session

In a session without an embedding program every value is nothing or a string that can be quoted:
what frames hold, what calls pass, and what comes out unless it is thrown. So errors are only ever
thrown, and every string can be written down as program text.

* `Value.Quotable`, `Output.Quotable`, `State.Quotable` — values, outputs and states of that kind.
* `Eval.GivesQuotable` — computations that come to such outputs and states.
* `Session.Reached.values_quotable` — every session that scripts lead to, and every evaluation in
  it.
-/

namespace Phrasebook

section

variable [CallStack]

/-! ## Quotable values -/

/-- Nothing, or a string that is read back from its text. -/
def Value.Quotable : Value → Prop
  | .nothing => True
  | .string text => text.Quotes
  | .error _ | .host _ => False

theorem Value.quotable_iff {value : Value} : value.Quotable ↔ value.Plain := by
  cases value with
  | nothing => exact .rfl
  | string text => exact Text.quotes_iff
  | error message => exact .rfl
  | host value => exact .rfl

/-- What comes out is quotable, unless it is thrown. -/
def Output.Quotable (output : Output) : Prop := output.isThrown = false → output.value.Quotable

theorem Output.Plain.quotable {output : Output} (h : output.Plain) : output.Quotable := by
  intro hthrown
  cases output with
  | returned value => exact Value.quotable_iff.2 h
  | lastValue value => exact Value.quotable_iff.2 h
  | thrown value => cases hthrown

omit [CallStack] in
theorem Output.PlainEnd.plain {output : Output} (h : output.PlainEnd) : output.Plain := by
  cases output with
  | returned value => exact h.elim
  | lastValue value => exact h
  | thrown value => exact h

/-- Whatever a frame holds, and whatever a call passed, is quotable. -/
structure State.Quotable {Act Memory : Type} (state : State Act Memory) : Prop where
  stored : ∀ frame key value,
    (state.store.bindings frame).find? key = some (.stored value) → value.Quotable
  passed : ∀ key args found, .dispatched key args found ∈ state.trace →
    ∀ value ∈ args, value.Quotable

theorem State.Sound.quotable {Act Memory : Type} {state : State Act Memory} (h : state.Sound) :
    state.Quotable where
  stored frame key _ hf := Value.quotable_iff.2 (h.store frame key _ hf).2
  passed _ _ _ hmem value hv := Value.quotable_iff.2 ((h.trace _ hmem).1.2 value hv)

variable {host : Host}

/-! ## Evaluations -/

/-- The computation comes from the state to another one of the same kind, and to a quotable output
    if to any. -/
def Eval.GivesQuotable (m : host.Eval Output) (state : host.State) : Prop :=
  match m state with
  | .ok output after => output.Quotable ∧ after.Sound ∧ after.Quotable
  | .error _ after => after.Sound ∧ after.Quotable

theorem Eval.Sound.givesQuotable {maxDepth : Int} {m : host.Eval Output} {Post : Output → Prop}
    (h : Eval.Sound maxDepth m Post) (hpost : ∀ output, Post output → output.Quotable)
    {state : host.State} (hs : state.Sound) : Eval.GivesQuotable m state := by
  have hrun := h state hs
  unfold GivesQuotable
  cases hm : m state with
  | ok output after =>
    rw [hm] at hrun
    exact ⟨hpost output hrun.1, hrun.2, hrun.2.quotable⟩
  | error fault after =>
    rw [hm] at hrun
    exact ⟨hrun.2, hrun.2.quotable⟩

/-! ## Sessions -/

namespace Session

theorem runProgram_output {session : Session host} (hs : session.state.Sound) {program : Program}
    (hp : Program.Every Part.Spellable program) {report : Report} {output : Output}
    (hr : (session.runProgram program).1 = .ok report) (ho : report.output = some output) :
    output.Quotable := by
  have hrun := session.program_sound hp userFrame session.state hs
  unfold runProgram at hr
  cases he : evaluate session.maxDepth 0 program userFrame session.state with
  | ok result state =>
    rw [he] at hr hrun
    -- A report has the output in both cases; what was thrown need not be quotable.
    cases hthrown : result.isThrown with
    | true =>
      simp only [hthrown, if_true] at hr
      cases hr
      cases ho
      intro hnot
      rw [hthrown] at hnot
      cases hnot
    | false =>
      simp only [hthrown] at hr
      cases hr
      cases ho
      exact hrun.1.plain.quotable
  | error fault state =>
    rw [he] at hr hrun
    obtain rfl | ⟨rfl, -⟩ := hrun.1
    · cases hr
      cases ho
    · cases hr

theorem run_output {session : Session host} (hs : session.state.Sound) {source : Text}
    {allowIncomplete : Bool} {report : Report} {output : Output}
    (hr : (session.run source allowIncomplete).1 = .ok report)
    (ho : report.output = some output) : output.Quotable := by
  have hcleared : ({ session with state := session.state.cleared } : Session host).state.Sound :=
    hs.cleared
  unfold run at hr
  dsimp only at hr
  split at hr
  · cases hr
    cases ho
  · split at hr
    · cases hr
      cases ho
    · cases hr
      cases ho
  · cases hr
    cases ho
  · next program hp => exact runProgram_output hcleared (spells_of_parse hp).1.every hr ho

/-- Whatever scripts a session without an embedding program has run: its frames hold nothing but
    quotable values, its calls passed nothing else, and what a script comes to is quotable unless it
    was thrown. The same holds along the way: wherever evaluations of programs or of their commands
    start from such a state, they end in one, with a quotable output unless it is thrown. A string
    is written down as program text that denotes it. -/
theorem Reached.values_quotable {session : Session host} (h : session.Reached) :
    (session.state.Sound ∧ session.state.Quotable)
    ∧ (∀ source allowIncomplete report output,
        (session.run source allowIncomplete).1 = .ok report → report.output = some output →
        output.Quotable)
    ∧ (∀ state : host.State, state.Sound → ∀ text program, Spells text program →
        ∀ maxDepth calls scope, Eval.GivesQuotable (evaluate maxDepth calls program scope) state
          ∧ ∀ command ∈ program,
            Eval.GivesQuotable (executeCommand maxDepth calls command scope) state)
    ∧ ∀ text, (Value.string text).Quotable →
        parse (Value.string text).print
          = .ok ⟨[.mk [.string text (some .start)] (some .start)], .clean⟩ := by
  refine ⟨⟨h.sound, h.sound.quotable⟩, fun _ _ _ _ hr ho => run_output h.sound hr ho, ?_,
    fun text hq => hq⟩
  intro state hs text program hspells maxDepth calls scope
  refine ⟨(evaluate_sound maxDepth calls calls program scope hspells.every).givesQuotable
    (fun _ hout => hout.plain.quotable) hs, fun command hmem => ?_⟩
  have hcommand : Eval.Sound maxDepth
      (executeCommand maxDepth calls command scope : host.Eval Output) Output.Plain :=
    execute_sound (evaluate_sound maxDepth calls) scope (hspells.every.mem command hmem)
  exact hcommand.givesQuotable (fun _ hout => hout.quotable) hs

end Session

end

namespace Session

open StandardStack

/-- A script that stores a string with braces and backslashes of its own, and a name for it. -/
theorem Reached.values_quotable_of_braces :
    let text : Text := "a \x7b\\\x7bb\x7d \\\\".toList
    let script : Text := "name ".toList ++ text.braced ++ " as {x}; name (x) as {y}".toList
    ∃ started : Session Host.alone,
      Session.start .alone () [] (some preludeSource) 10 = .ok started
      ∧ started.Reached
      ∧ ((started.run script false).2.state.store.bindings userFrame).find? (.ofWord ['y'])
        = some (.stored (.string text))
      ∧ parse (Value.string text).print
        = .ok ⟨[.mk [.string text (some .start)] (some .start)], .clean⟩ := by
  intro text script
  have hok : (Session.start Host.alone () [] (some preludeSource) 10).toOption.map (fun started =>
      (((started.run script false).2.state.store.bindings userFrame).find? (.ofWord ['y'])).bind
        fun entry => match entry with
          | .stored value => some value
          | _ => none)
        = some (some (.string text)) := by
    decide +kernel
  obtain ⟨started, hstart, hvalue⟩ := except_eq_ok_of_map hok
  obtain ⟨entry, hfound, hentry⟩ := Option.bind_eq_some_iff.1 hvalue
  obtain rfl : entry = .stored (.string text) := by
    cases entry with
    | stored value => rw [Option.some.inj hentry]
    | action action => cases hentry
    | foreign shown kind => cases hentry
  have hreached : started.Reached := .start hstart
  obtain ⟨⟨-, hquotable⟩, -, -, hprint⟩ := (hreached.run script false).values_quotable
  exact ⟨started, hstart, hreached, hfound, hprint text (hquotable.stored _ _ _ hfound)⟩

end Session

end Phrasebook
