import Phrasebook.Proofs.Evaluation.Arguments
import Phrasebook.Proofs.Evaluation.Termination

/-! # What comes after a throw

A throw ends the command and the program that it happens in, and those around them. So what would
have come next, there or further outside, makes no difference: the commands behind, the parts
behind, and the key that the command would have been called under.

* `Program.Reaches` — a program has come past its beginning.
* `Program.SameUntilThrown`, `Command.SameUntilThrown` — programs and commands that differ only
  behind a throw, at whatever level of nesting.
* `Program.SameUntilThrown.untraced_eq` — such programs throw the same, in the same state.
* `dead_after_throw` — whatever comes after a throw is dead.
-/

namespace Phrasebook

variable {host : Host} {maxDepth : Int}

section

variable [CallStack] {calls : Nat}

/-! ## Programs -/

/-- Evaluated in the scope from the state, the beginning of a program comes to its end, and the
    command behind it begins in the state `begun`. -/
def Program.Reaches (maxDepth : Int) (calls : Nat) (beginning : List Command) (scope : FrameId)
    (state begun : host.State) : Prop :=
  state.depth < maxDepth ∧ calls < CallStack.size ∧ ∃ last ended,
    runCommands (.under maxDepth calls) scope beginning .nothing state.enter
      = .ok (.lastValue last) ended ∧ begun = ended.record (.began ended.depth)

/-- Below the limit a program runs its commands, the programs inside them being evaluated as it is
    evaluated itself. -/
theorem evaluate_eq_runCommands (hhost : host.Nests maxDepth) {state : host.State}
    (hlimit : state.depth < maxDepth) (hcalls : calls < CallStack.size) (program : Program)
    (scope : FrameId) :
    evaluate maxDepth calls program scope state
      = Eval.leave (runCommands (.under maxDepth calls) scope program .nothing state.enter) := by
  rw [← evaluateOnce_of_agree hhost (fun _ _ _ _ _ => rfl), evaluateOnce_apply, if_pos hcalls,
    if_neg (Int.not_le.2 hlimit), Nested.under]

/-- A beginning is gone past exactly if it throws nothing when it is evaluated by itself. -/
theorem Program.exists_reaches_iff (hhost : host.Nests maxDepth) {beginning : List Command}
    {scope : FrameId} {state : host.State} :
    (∃ begun, Program.Reaches maxDepth calls beginning scope state begun)
      ↔ ∃ last after,
        evaluate maxDepth calls beginning scope state = .ok (.lastValue last) after := by
  constructor
  · rintro ⟨_, hlimit, hcalls, last, ended, hrun, rfl⟩
    refine ⟨last, ended.leave, ?_⟩
    rw [evaluate_eq_runCommands hhost hlimit hcalls, hrun]
    rfl
  · rintro ⟨last, after, hrun⟩
    obtain ⟨levels, hroom, hcalls⟩ := room_of_evaluate hrun rfl
    have hlimit : state.depth < maxDepth := by
      simp only [room] at hroom
      omega
    rw [evaluate_eq_runCommands hhost hlimit hcalls] at hrun
    obtain ⟨ended, hended, -⟩ := Eval.leave_eq_ok hrun
    exact ⟨_, hlimit, hcalls, last, ended, hended, rfl⟩

/-- A program ends with the first command that throws. -/
theorem evaluate_of_reaches (hhost : host.Nests maxDepth) {beginning : List Command}
    {scope : FrameId} {state begun after : host.State} {command : Command} {value : Value}
    (hbegun : Program.Reaches maxDepth calls beginning scope state begun)
    (hthrows : executeCommand maxDepth calls command scope begun = .ok (.thrown value) after)
    (rest : List Command) :
    evaluate maxDepth calls (beginning ++ command :: rest) scope state
      = .ok (.thrown value) after.leave := by
  obtain ⟨hlimit, hcalls, last, ended, hrun, rfl⟩ := hbegun
  rw [executeCommand] at hthrows
  rw [evaluate_eq_runCommands hhost hlimit hcalls, runCommands_append hrun, runCommands_cons,
    hthrows]
  rfl

/-! ## Commands -/

def Part.withoutWords (parts : List Part) : List Part := parts.filter fun part => !part.isWord

section

variable {nested : Nested host} {scope : FrameId} {parts : List Part} {state called : host.State}
  {args : List Value}

/-- Words make no difference to what the parts give. -/
theorem Part.allGive_withoutWords :
    Part.AllGive nested scope (Part.withoutWords parts) state args called
      ↔ Part.AllGive nested scope parts state args called := by
  induction parts generalizing state args with
  | nil => exact Iff.rfl
  | cons part rest ih =>
    cases part with
    | word text at? => exact ih.trans ⟨.word, fun | .word h => h⟩
    | string text at? =>
      constructor
      · rintro (_ | _ | h | _)
        exact .string (ih.1 h)
      · rintro (_ | _ | h | _)
        exact .string (ih.2 h)
    | filler content at? =>
      constructor
      · rintro (_ | _ | _ | ⟨hcontent, hthrown, h⟩)
        exact .filler hcontent hthrown (ih.1 h)
      · rintro (_ | _ | _ | ⟨hcontent, hthrown, h⟩)
        exact .filler hcontent hthrown (ih.2 h)
    | foreign label => exact ⟨nofun, nofun⟩

/-- After a filler that throws no part is looked at. -/
theorem Part.AllGive.gather_thrown {content : List Command} {value : Value} {after : host.State}
    (h : Part.AllGive nested scope parts state args called)
    (hthrows : evaluateInside nested.filler content scope called = .ok (.thrown value) after)
    (at? : Option Position) (rest : List Part) :
    gather nested scope (parts ++ .filler content at? :: rest) state
      = .ok (.thrown value) after := by
  induction h with
  | nil =>
    rw [List.nil_append, gather_filler]
    exact Eval.bind_eq_ok_iff.2 ⟨_, _, hthrows, rfl⟩
  | word _ ih => exact Eval.bind_eq_ok_iff.2 ⟨_, _, ih hthrows, rfl⟩
  | string _ ih => exact Eval.bind_eq_ok_iff.2 ⟨_, _, ih hthrows, rfl⟩
  | filler hcontent hthrown _ ih =>
    rw [List.cons_append, gather_filler]
    refine Eval.bind_eq_ok_iff.2 ⟨_, _, hcontent, ?_⟩
    rw [hthrown]
    exact Eval.bind_eq_ok_iff.2 ⟨_, _, ih hthrows, rfl⟩

/-- A command with a filler that throws is given up: its key is not looked up, whatever its words
    are, and what is thrown is thrown on. -/
theorem Part.AllGive.execute_thrown {content : List Command} {value : Value} {after : host.State}
    (h : Part.AllGive nested scope parts state args called)
    (hthrows : evaluateInside nested.filler content scope called = .ok (.thrown value) after)
    {others : List Part} (hwords : Part.withoutWords others = Part.withoutWords parts)
    (rest : List Part) (at? position? : Option Position) :
    execute nested scope (.mk (others ++ .filler content at? :: rest) position?) state
      = .ok (.thrown value) (after.record (.thrownInFiller value)) := by
  have hothers : Part.AllGive nested scope others state args called := by
    rw [← Part.allGive_withoutWords, hwords, Part.allGive_withoutWords]
    exact h
  exact execute_of_gather_thrown (hothers.gather_thrown hthrows at? rest)

end

/-- The command comes to the call of a branch in the state `called`; the condition of the branch
    holds, and its code is read as the program. -/
def Command.RunsBranch (maxDepth : Int) (calls : Nat) (command : Command) (scope : FrameId)
    (state called : host.State) (program : Program) : Prop :=
  ∃ condition code,
    Part.AllGive (.under maxDepth calls) scope command.parts state [condition, .string code] called
      ∧ condition.truthy = true ∧ parseProgramWithin (readingLimit calls) code = .ok program
      ∧ called.store.find? scope (.ofCommand command) = some (.action (.builtin .branch))

/-- What the program of a branch throws is thrown by the command. -/
theorem Command.RunsBranch.untraced_eq (htrace : host.IgnoresTrace) {command : Command}
    {scope : FrameId} {state called last : host.State} {program : Program} {value : Value}
    (h : command.RunsBranch maxDepth calls scope state called program)
    (hthrows : Eval.untraced
        (evaluateInside (Nested.under maxDepth calls).branch program scope called)
      = .ok (.thrown value) last) :
    Eval.untraced (executeCommand maxDepth calls command scope state)
      = .ok (.thrown value) last := by
  obtain ⟨condition, code, hgive, hcondition, hread, hfound⟩ := h
  -- The calls of two branches differ in their keys and texts, but only the trace tells of a call.
  have hrecorded : ∀ event,
      Eval.untraced (evaluateInside (Nested.under maxDepth calls).branch program scope
        (called.record event)) = .ok (.thrown value) last := by
    intro event
    have hinside := evaluateInside_ignoresTrace
      (evaluate_ignoresTrace htrace maxDepth (calls + CallStack.branch)) program scope
    rw [← hthrows]
    exact hinside.congr rfl
  rw [executeCommand, execute_of_gather hgive.gather_eq, hfound, apply_branch hcondition hread,
    untraced_branchEnd, hrecorded]
  obtain ⟨after, -, rfl⟩ := Eval.untraced_eq_ok_iff.1 hthrows
  rfl

/-! ## Levels -/

/-- The state in which there is a new frame inside the scope. -/
def State.inside (state : host.State) (scope : FrameId) : host.State :=
  { state with store := (state.store.child scope).2 }

mutual
/-- Evaluated in the scope from the state, both programs throw, and they are the same up to the
    place where they do. -/
inductive Program.SameUntilThrown (maxDepth : Int) :
    Nat → FrameId → host.State → Program → Program → Prop where
  | same {calls : Nat} {scope : FrameId} {state after : host.State} {program : Program}
      {value : Value} : evaluate maxDepth calls program scope state = .ok (.thrown value) after →
      Program.SameUntilThrown maxDepth calls scope state program program
  | command {calls : Nat} {scope : FrameId} {state begun : host.State}
      {beginning rest rest' : List Command} {command command' : Command} :
      Program.Reaches maxDepth calls beginning scope state begun →
      Command.SameUntilThrown maxDepth calls scope begun command command' →
      Program.SameUntilThrown maxDepth calls scope state (beginning ++ command :: rest)
        (beginning ++ command' :: rest')

inductive Command.SameUntilThrown (maxDepth : Int) :
    Nat → FrameId → host.State → Command → Command → Prop where
  | same {calls : Nat} {scope : FrameId} {state after : host.State} {command : Command}
      {value : Value} :
      executeCommand maxDepth calls command scope state = .ok (.thrown value) after →
      Command.SameUntilThrown maxDepth calls scope state command command
  | filler {calls : Nat} {scope : FrameId} {state called : host.State}
      {parts parts' rest rest' : List Part} {args : List Value} {content content' : List Command}
      {at? at?' position? position?' : Option Position} :
      Part.AllGive (.under maxDepth calls) scope parts state args called →
      Part.withoutWords parts' = Part.withoutWords parts →
      Program.SameUntilThrown maxDepth (calls + CallStack.filler) (called.store.child scope).1
        (called.inside scope) content content' →
      Command.SameUntilThrown maxDepth calls scope state
        (.mk (parts ++ .filler content at? :: rest) position?)
        (.mk (parts' ++ .filler content' at?' :: rest') position?')
  | branch {calls : Nat} {scope : FrameId} {state called : host.State}
      {command command' : Command} {program program' : Program} :
      command.RunsBranch maxDepth calls scope state called program →
      command'.RunsBranch maxDepth calls scope state called program' →
      Program.SameUntilThrown maxDepth (calls + CallStack.branch) (called.store.child scope).1
        (called.inside scope) program program' →
      Command.SameUntilThrown maxDepth calls scope state command command'
end

/-- Programs may differ as early as in the first command. -/
theorem Program.SameUntilThrown.first {scope : FrameId} {state : host.State}
    {command command' : Command} {rest rest' : List Command} (hlimit : state.depth < maxDepth)
    (hcalls : calls < CallStack.size)
    (h : Command.SameUntilThrown maxDepth calls scope
      (state.enter.record (.began state.enter.depth)) command command') :
    Program.SameUntilThrown maxDepth calls scope state (command :: rest) (command' :: rest') :=
  have hbegun : Program.Reaches maxDepth calls [] scope state
      (state.enter.record (.began state.enter.depth)) :=
    ⟨hlimit, hcalls, .nothing, state.enter, rfl, rfl⟩
  .command hbegun h

/-- A command that is seen to throw is the same as itself as far as it throws. -/
theorem Command.SameUntilThrown.of_throws {frame : FrameId} {begun : host.State}
    {command : Command} (h : (match executeCommand maxDepth calls command frame begun with
      | .ok (.thrown _) _ => true
      | _ => false) = true) :
    Command.SameUntilThrown maxDepth calls frame begun command command := by
  cases hend : executeCommand maxDepth calls command frame begun with
  | error fault after =>
    rw [hend] at h
    cases h
  | ok output after =>
    rw [hend] at h
    cases output with
    | thrown value => exact .same hend
    | returned value => cases h
    | lastValue value => cases h

mutual
/-- Both programs throw the same value, and come to the same effects, depth and frames. Only the
    trace may tell the texts of branches apart. -/
theorem Program.SameUntilThrown.untraced_eq (hhost : host.Nests maxDepth)
    (htrace : host.IgnoresTrace) {calls : Nat} {scope : FrameId} {state : host.State}
    {program program' : Program} :
    Program.SameUntilThrown maxDepth calls scope state program program' →
    ∃ value last,
      Eval.untraced (evaluate maxDepth calls program scope state) = .ok (.thrown value) last
      ∧ Eval.untraced (evaluate maxDepth calls program' scope state) = .ok (.thrown value) last
  | .same h => ⟨_, _, by rw [h]; rfl, by rw [h]; rfl⟩
  | .command hbegun hcommand => by
    obtain ⟨value, last, hrun, hrun'⟩ := hcommand.untraced_eq hhost htrace
    obtain ⟨after, hafter, rfl⟩ := Eval.untraced_eq_ok_iff.1 hrun
    obtain ⟨after', hafter', hsame⟩ := Eval.untraced_eq_ok_iff.1 hrun'
    -- Up to the trace the states are the same, and so they are when the depth is lowered.
    refine ⟨value, after.untraced.leave.untraced, ?_, ?_⟩
    · rw [evaluate_of_reaches hhost hbegun hafter]
      rfl
    · rw [evaluate_of_reaches hhost hbegun hafter', ← hsame]
      rfl

theorem Command.SameUntilThrown.untraced_eq (hhost : host.Nests maxDepth)
    (htrace : host.IgnoresTrace) {calls : Nat} {scope : FrameId} {state : host.State}
    {command command' : Command} :
    Command.SameUntilThrown maxDepth calls scope state command command' →
    ∃ value last,
      Eval.untraced (executeCommand maxDepth calls command scope state) = .ok (.thrown value) last
      ∧ Eval.untraced (executeCommand maxDepth calls command' scope state)
        = .ok (.thrown value) last
  | .same h => ⟨_, _, by rw [h]; rfl, by rw [h]; rfl⟩
  | .filler hgive hwords hcontent => by
    obtain ⟨value, last, hrun, hrun'⟩ := hcontent.untraced_eq hhost htrace
    obtain ⟨after, hafter, rfl⟩ := Eval.untraced_eq_ok_iff.1 hrun
    obtain ⟨after', hafter', hsame⟩ := Eval.untraced_eq_ok_iff.1 hrun'
    refine ⟨value, after.untraced, ?_, ?_⟩
    · rw [executeCommand, hgive.execute_thrown hafter rfl]
      rfl
    · rw [executeCommand, hgive.execute_thrown hafter' hwords, ← hsame]
      rfl
  | .branch hruns hruns' hprogram => by
    obtain ⟨value, last, hrun, hrun'⟩ := hprogram.untraced_eq hhost htrace
    exact ⟨value, last, hruns.untraced_eq htrace hrun, hruns'.untraced_eq htrace hrun'⟩
end

/-- Everything after a throw is dead. (1) Where the beginning of a program comes to its end, as it
    does if it throws nothing by itself, and the next command throws, the evaluation ends there,
    whatever commands are behind. (2) Where the fillers in front of a filler come to their end and
    this one throws, the command ends in the state that the filler has left, and throws the same,
    whatever parts are behind and whatever words are in front: its own key is not looked up. (3)
    Both hold at every level of nesting, in fillers and in branches: programs and commands that
    differ behind a throw throw the same, with the same effects, depth and frames. -/
theorem dead_after_throw (hhost : host.Nests maxDepth) (htrace : host.IgnoresTrace) (calls : Nat)
    (scope : FrameId) (state : host.State) :
    (∀ beginning : List Command,
      ((∃ begun, Program.Reaches maxDepth calls beginning scope state begun)
        ↔ ∃ last after, evaluate maxDepth calls beginning scope state = .ok (.lastValue last) after)
      ∧ ∀ command begun value after, Program.Reaches maxDepth calls beginning scope state begun →
        executeCommand maxDepth calls command scope begun = .ok (.thrown value) after →
        ∀ rest, evaluate maxDepth calls (beginning ++ command :: rest) scope state
          = .ok (.thrown value) after.leave)
    ∧ (∀ parts args called content value after,
      Part.AllGive (.under maxDepth calls) scope parts state args called →
      evaluateInside (Nested.under maxDepth calls).filler content scope called
        = .ok (.thrown value) after →
      ∀ others rest at? position?, Part.withoutWords others = Part.withoutWords parts →
        executeCommand maxDepth calls (.mk (others ++ .filler content at? :: rest) position?) scope
            state
          = .ok (.thrown value) (after.record (.thrownInFiller value)))
    ∧ (∀ program program', Program.SameUntilThrown maxDepth calls scope state program program' →
      ∃ value last,
        Eval.untraced (evaluate maxDepth calls program scope state) = .ok (.thrown value) last
        ∧ Eval.untraced (evaluate maxDepth calls program' scope state) = .ok (.thrown value) last)
    ∧ ∀ command command', Command.SameUntilThrown maxDepth calls scope state command command' →
      ∃ value last,
        Eval.untraced (executeCommand maxDepth calls command scope state) = .ok (.thrown value) last
        ∧ Eval.untraced (executeCommand maxDepth calls command' scope state)
          = .ok (.thrown value) last := by
  refine ⟨fun beginning => ⟨Program.exists_reaches_iff hhost, ?_⟩, ?_,
    fun _ _ h => h.untraced_eq hhost htrace, fun _ _ h => h.untraced_eq hhost htrace⟩
  · intro command begun value after hbegun hthrows rest
    exact evaluate_of_reaches hhost hbegun hthrows rest
  · intro parts args called content value after hgive hthrows others rest at? position? hwords
    exact hgive.execute_thrown hthrows hwords rest at? position?

end

/-- A text that is seen to begin with a command of a word and a string, begins with it. -/
theorem exists_word_string {code word content : Text} {first second at? : Option Position}
    {levels : Nat} (h : (match parseProgramWithin levels code with
      | .ok (.mk [.word t p, .string s q] r :: _) =>
        decide ((t, p, s, q, r) = (word, first, content, second, at?))
      | _ => false) = true) :
    ∃ rest, parseProgramWithin levels code
      = .ok (.mk [.word word first, .string content second] at? :: rest) := by
  split at h
  · next hread =>
    cases of_decide_eq_true h
    exact ⟨_, hread⟩
  · cases h

open StandardStack

/-- A filler whose branch throws, and another one that differs behind the throw in the branch,
    behind the branch, and in the words and parts around the filler. Some of the parts are
    foreign. -/
theorem dead_after_throw_of_branch :
    let store : Store Empty := (bindActions Store.empty.root.2 0 builtinActions).1
    let state : Host.alone.State := { State.initial () with store }
    let code := "throw {a}; print {b}".toList
    let code' := "throw {a}; unknown {c}".toList
    let throws : Command := .mk [.word "throw".toList (some .start),
      .string ['a'] (some ⟨6, 1, 6⟩)] (some .start)
    let program : Program := [.mk [.word ['x'] none, .filler [branchCommand ['1'] code] none] none]
    let program' : Program := [.mk [.word ['y'] none, .filler [branchCommand ['1'] code',
      .mk [.foreign "int".toList] none] none, .foreign "str".toList] none]
    Host.alone.Nests 10 ∧ Host.alone.IgnoresTrace
      ∧ (∃ rest rest', parseProgramWithin (readingLimit 3) code = .ok (throws :: rest)
        ∧ parseProgramWithin (readingLimit 3) code' = .ok (throws :: rest'))
      ∧ Program.SameUntilThrown 10 0 0 state program program'
      ∧ ∃ value last, Eval.untraced (evaluate 10 0 program 0 state) = .ok (.thrown value) last
        ∧ Eval.untraced (evaluate 10 0 program' 0 state) = .ok (.thrown value) last := by
  intro store state code code' throws program program'
  have hhost := Host.alone_nests 10
  have htrace := Host.alone_ignoresTrace
  obtain ⟨rest, hcode⟩ :
      ∃ rest, parseProgramWithin (readingLimit 3) code = .ok (throws :: rest) :=
    exists_word_string (by decide +kernel)
  obtain ⟨rest', hcode'⟩ :
      ∃ rest, parseProgramWithin (readingLimit 3) code' = .ok (throws :: rest) :=
    exists_word_string (by decide +kernel)
  have hfound : ∀ code, store.find? 0 (Key.ofCommand (branchCommand ['1'] code))
      = some (.action (.builtin .branch)) := by
    intro code
    rw [key_branchCommand ofPattern_branch]
    decide +kernel
  have hsame : Program.SameUntilThrown 10 0 0 state program program' := by
    refine .first (by decide) (by decide) ?_
    show Command.SameUntilThrown 10 0 0 _ (.mk ([.word ['x'] none] ++ .filler _ _ :: []) none)
      (.mk ([.word ['y'] none] ++ .filler _ _ :: [.foreign _]) none)
    refine .filler (.word .nil) rfl (.first (by decide) (by decide) ?_)
    refine .branch ⟨_, _, .word (.string (.word (.word (.string .nil)))), rfl, hcode,
        (Store.find?_child store 0 _).trans (hfound code)⟩
      ⟨_, _, .word (.string (.word (.word (.string .nil)))), rfl, hcode',
        (Store.find?_child store 0 _).trans (hfound code')⟩ ?_
    exact .first (by decide) (by decide) (.of_throws (by decide +kernel))
  obtain ⟨-, -, hprograms, -⟩ := dead_after_throw hhost htrace 0 0 state
  exact ⟨hhost, htrace, ⟨rest, rest', hcode, hcode'⟩, hsame, hprograms _ _ hsame⟩

end Phrasebook
