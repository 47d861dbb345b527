import Phrasebook.Proofs.Evaluation.Alike
import Phrasebook.Proofs.Evaluation.Calls
import Phrasebook.Proofs.Evaluation.Stack
import Phrasebook.Proofs.Evaluation.Trace
import Phrasebook.Proofs.Grammar.KeyNotation
import Phrasebook.Proofs.Grammar.Quotation
import Phrasebook.Proofs.Scope.Persistence

/-! # Quoted programs

A program that is written down, quoted and run as a branch does what it would do as it stands, as
long as there is room on the stack: what is read and run as a branch takes more of it than a filler.

* `branchText`, `branchCommand` — a branch with its condition and its code, as text and as a tree.
* `spells_branch`, `parse_branchText` — the text spells the command, and is read as it.
* `apply_branch`, `execute_branch` — what a branch does whose condition holds and whose code can be
  read.
* `evaluateInside_filler` — what a filler does, if the stack has room for a branch.
* `quoted_runs_alike` — the text of a program, quoted in a branch, runs as the program does.
-/

namespace Phrasebook

/-! ## The command -/

/-- The text of a command that runs `code` if `condition` is not empty. -/
def branchText (condition code : Text) : Text :=
  "if ".toList ++ condition.braced ++ ", then ".toList ++ code.braced

def branchCommand (condition code : Text) : Command :=
  .mk [.word "if".toList none, .string condition none, .word ",".toList none,
    .word "then".toList none, .string code none] none

theorem spells_branch {condition code : Text} (hcondition : condition.Balanced)
    (hcode : code.Balanced) :
    Spells (branchText condition code) [branchCommand condition code] := by
  have hblank : Blanks [' '] := by
    intro c hc
    obtain rfl : c = ' ' := by simpa using hc
    decide
  have hword : ∀ text : Text, text.escapeWord = text → text ≠ [] →
      SpellsPart text (.word text none) := by
    intro text hplain hne
    have hspells := spellsWord_escapeWord text
    rw [hplain] at hspells
    exact .word none hspells hne
  -- Part by part; only the string in front of the comma needs no space behind it.
  have hthen := SpellsParts.more (hword "then".toList rfl nofun) hblank (fun _ _ => by simp)
    (.last (.string none hcode))
  have hcomma := SpellsParts.more (hword ",".toList rfl nofun) hblank (fun _ _ => by simp) hthen
  have hstring := @SpellsParts.more _ [] _ _ _ _ (.string none hcondition) nofun nofun hcomma
  have hif := SpellsParts.more (hword "if".toList rfl nofun) hblank (fun _ _ => by simp) hstring
  have hall := SpellsProgram.commands .nil (.last none hif) .nil
  refine .program ?_
  simpa [branchText, branchCommand] using hall

theorem parse_branchText [CallStack] {condition code : Text} (hcondition : condition.Balanced)
    (hcode : code.Balanced) :
    ∃ command, parse (branchText condition code) = .ok ⟨[command], .clean⟩
      ∧ command.same (branchCommand condition code) = true := by
  have hnesting : Program.nesting [branchCommand condition code] < nestingLimit :=
    nestingLimit_pos
  obtain ⟨commands, hread, herase⟩ := parse_of_spells (spells_branch hcondition hcode) hnesting
  rcases commands with _ | ⟨command, _ | ⟨next, rest⟩⟩
  · cases herase
  · exact ⟨command, hread, (Command.same_iff _ _).2 (List.cons.inj herase).1⟩
  · cases (List.cons.inj herase).2

/-- The key of every branch. -/
def branchKey : Key := Key.ofCommand (branchCommand [] [])

theorem ofPattern_branch [CallStack] : Key.ofPattern Builtin.branch.pattern = .ok branchKey :=
  Key.ofPattern_eq_ok (by decide +kernel)

/-- The texts in its gaps are not part of the key of a command. -/
theorem key_branchCommand [CallStack] {key : Key}
    (hkey : Key.ofPattern Builtin.branch.pattern = .ok key)
    (condition code : Text) : Key.ofCommand (branchCommand condition code) = key :=
  Except.ok.inj (ofPattern_branch.symm.trans hkey)

/-! ## What it does -/

variable {host : Host}

/-- What a branch, called under a key, makes of the end of its program: what was thrown is thrown
    on, and any other value is dropped. -/
def branchEnd (key : Key) : EStateM.Result Fault host.State Output →
    EStateM.Result Fault host.State Output
  | .ok (.thrown value) after => .ok (.thrown value) (after.record (.thrownBy key value))
  | .ok (.returned _) after | .ok (.lastValue _) after => .ok .ok after
  | .error fault after => .error fault after

theorem untraced_branchEnd (key : Key) (result : EStateM.Result Fault host.State Output) :
    Eval.untraced (branchEnd key result)
      = Eval.untraced (branchEnd key (Eval.untraced result)) := by
  cases result with
  | error fault after => rfl
  | ok output after => cases output <;> rfl

theorem evaluateInside_ignoresTrace {run : Program → FrameId → host.Eval Output}
    (h : ∀ program scope, (run program scope).IgnoresTrace) (program : Program) (scope : FrameId) :
    (evaluateInside run program scope).IgnoresTrace :=
  Eval.IgnoresTrace.bind (fun _ => rfl) fun frame => h program frame

/-- The state in which the action of a branch is performed: all that has changed is that the trace
    tells of the call. -/
def State.branched (state : host.State) (key : Key) (condition code : Text) : host.State :=
  state.record (.dispatched key [.string condition, .string code]
    (some (.action (.builtin .branch))))

section

variable [CallStack] {nested : Nested host} {scope : FrameId} {state : host.State} {key : Key}
  {condition code : Text} {program : Program}

theorem execute_branchCommand (hkey : Key.ofPattern Builtin.branch.pattern = .ok key)
    (hfound : state.store.find? scope key = some (.action (.builtin .branch))) :
    execute nested scope (branchCommand condition code) state
      = apply nested scope key [.string condition, .string code] (some (.action (.builtin .branch)))
          (state.branched key condition code) := by
  have hgather : gather nested scope (branchCommand condition code).parts state
      = .ok (.ready [.word "if".toList, .gap, .word ",".toList, .word "then".toList, .gap]
          [.string condition, .string code]) state := rfl
  -- The state in which the key is looked up is the one before the call is recorded.
  rw [execute_of_gather hgather, key_branchCommand hkey, hfound]
  rfl

omit [CallStack] in
theorem truthy_of_ne_nil (h : condition ≠ []) : (Value.string condition).truthy = true := by
  cases condition with
  | nil => exact absurd rfl h
  | cons c rest => rfl

/-- A branch whose condition holds reads its code and evaluates it in a new frame. -/
theorem apply_branch {condition : Value} (hcondition : condition.truthy = true)
    (hread : parseProgramWithin (readingLimit nested.calls) code = .ok program) :
    apply nested scope key [condition, .string code] (some (.action (.builtin .branch))) state
      = branchEnd key (evaluateInside nested.branch program scope state) := by
  have hbranch : runBranch nested scope condition (.string code)
      = evaluateInside nested.branch program scope >>= fun output =>
          pure (if output.isThrown then output else .ok) := by
    simp only [runBranch, hcondition, Value.string?, readProgram, hread, evaluateInside, bind_assoc]
    rfl
  have hperform : perform nested scope (.builtin .branch) [condition, .string code] state
      = EStateM.bind (evaluateInside nested.branch program scope)
          (fun output => pure (if output.isThrown then output else .ok)) state :=
    congrFun hbranch state
  rw [apply_action, hperform]
  unfold EStateM.bind
  cases evaluateInside nested.branch program scope state with
  | error fault after => rfl
  | ok output after => cases output <;> rfl

theorem execute_branch (hkey : Key.ofPattern Builtin.branch.pattern = .ok key)
    (hfound : state.store.find? scope key = some (.action (.builtin .branch)))
    (hcondition : condition ≠ [])
    (hread : parseProgramWithin (readingLimit nested.calls) code = .ok program) :
    execute nested scope (branchCommand condition code) state
      = branchEnd key
          (evaluateInside nested.branch program scope (state.branched key condition code)) := by
  rw [execute_branchCommand hkey hfound, apply_branch (truthy_of_ne_nil hcondition) hread]

/-- Code that nests too deep is not even begun. -/
theorem execute_branch_tooDeep (hkey : Key.ofPattern Builtin.branch.pattern = .ok key)
    (hfound : state.store.find? scope key = some (.action (.builtin .branch)))
    (hcondition : condition ≠ [])
    (hread : parseProgramWithin (readingLimit nested.calls) code = .error .tooDeep) :
    execute nested scope (branchCommand condition code) state
      = .error .tooDeep (state.branched key condition code) := by
  have hbranch : runBranch nested scope (.string condition) (.string code)
      = (throw .tooDeep : host.Eval Output) := by
    simp only [runBranch, truthy_of_ne_nil hcondition, Value.string?, readProgram, hread]
    rfl
  rw [execute_branchCommand hkey hfound, apply_action]
  generalize state.branched key condition code = called
  have hperform : perform nested scope (.builtin .branch) [.string condition, .string code] called
      = .error .tooDeep called := congrFun hbranch called
  rw [hperform]
  rfl

end

/-! ## Programs in branches -/

section

variable [CallStack] {program : Program} {condition code : Text} {command : Command} {key : Key}
  {scope : FrameId}

/-- Whatever spells a program runs it as a branch, if the stack has room for reading it. -/
theorem executeCommand_branch (hspells : Spells code program)
    (hlike : command.same (branchCommand condition code) = true) (hcondition : condition ≠ [])
    (hkey : Key.ofPattern Builtin.branch.pattern = .ok key) {state : host.State}
    (hfound : state.store.find? scope key = some (.action (.builtin .branch))) (maxDepth : Int)
    (calls : Nat) :
    executeCommand maxDepth calls command scope state
      = if Program.nesting program < readingLimit calls then
          branchEnd key (evaluateInside (Nested.under maxDepth calls).branch program scope
            (state.branched key condition code))
        else .error .tooDeep (state.branched key condition code) := by
  have halike : (Nested.under maxDepth calls : Nested host).RespectsAlike :=
    evaluate_alike maxDepth calls
  obtain ⟨hreads, hfails⟩ := parseProgramWithin_of_spells hspells (readingLimit calls)
  rw [executeCommand, execute_alike halike scope (.of_same hlike)]
  -- What is read is the program up to positions, which no evaluation looks at.
  split
  · next hroom =>
    obtain ⟨read, hread, hsame⟩ := hreads hroom
    rw [execute_branch hkey hfound hcondition hread]
    simp only [evaluateInside, Nested.branch, halike _ (.of_same hsame)]
  · next hroom =>
    exact execute_branch_tooDeep hkey hfound hcondition (hfails (Nat.not_lt.1 hroom))

/-- What is evaluated as a branch, and finds room for that, is evaluated alike as a filler. -/
theorem evaluateInside_filler {maxDepth : Int} {calls : Nat} {state : host.State}
    (h : ∀ after,
      evaluateInside (Nested.under maxDepth calls).branch program scope state
        ≠ .error .tooDeep after) :
    evaluateInside (Nested.under maxDepth calls).filler program scope state
      = evaluateInside (Nested.under maxDepth calls).branch program scope state := by
  have hfollows : Eval.FollowsOnStack (Output.Throws fun _ => False)
      (evaluateInside (Nested.under maxDepth calls).branch program scope : host.Eval Output)
      (evaluateInside (Nested.under maxDepth calls).filler program scope) :=
    .step_bind (host.keeps_true.compositional.child scope) fun frame =>
      evaluate_followsOnStack maxDepth (Nat.add_le_add_left CallStack.filler_le_branch calls)
        program frame
  refine hfollows.eq_of_not_excused trivial ?_ ?_
  · rintro _ _ _ ⟨_, _, hfalse⟩
    exact hfalse
  · rintro fault after hrun rfl
    exact h after hrun

/-- The text of a program whose strings are balanced can be quoted, if it can be written at all: in
    braces it is one string, and it is read back as the program. Run as a branch whose condition
    holds, in any scope in which the key of a branch means one, it is read and evaluated in a new
    frame inside the scope, unless the stack has no room for reading it while so many calls are
    open. If the stack has room for all that, the command does what the program does where a filler
    would evaluate it: the same effects and frames come of it, the same is thrown if anything is,
    and otherwise there is nothing for an answer. The call itself leaves no mark but its own in the
    trace, which makes no difference to anything that does not look there. -/
theorem quoted_runs_alike (hw : Program.WellFormed program) (hn : Program.Every Part.Native program)
    (hb : Program.Every Part.Balanced program) (hd : Program.nesting program < nestingLimit)
    (hcode : Program.print ['\n'] program = .ok code) :
    code.Quotes
    ∧ (∃ read, parseProgram code = .ok read ∧ Program.same read program = true)
    ∧ ∀ condition : Text, condition ≠ [] → condition.Balanced →
      ∃ command, parse (branchText condition code) = .ok ⟨[command], .clean⟩
        ∧ ∀ (host : Host) (maxDepth : Int) (calls : Nat) (scope : FrameId) (state : host.State)
            (key : Key),
          Key.ofPattern Builtin.branch.pattern = .ok key →
          state.store.find? scope key = some (.action (.builtin .branch)) →
          executeCommand maxDepth calls command scope state
              = (if Program.nesting program < readingLimit calls then
                  branchEnd key (evaluateInside (Nested.under maxDepth calls).branch program scope
                    (state.branched key condition code))
                else .error .tooDeep (state.branched key condition code))
            ∧ (host.IgnoresTrace →
              (∀ after, executeCommand maxDepth calls command scope state
                ≠ .error .tooDeep after) →
              Eval.untraced (executeCommand maxDepth calls command scope state)
                = Eval.untraced (branchEnd key
                    (evaluateInside (Nested.under maxDepth calls).filler program scope
                      state))) := by
  obtain ⟨-, rfl⟩ := Program.print_eq_ok_iff.1 hcode
  have hquotes := Program.render_quotes isCommandSeparator_lineFeed hn hb
  have hspells : Spells (Program.render ['\n'] program) program :=
    .program (Program.spells_render program isCommandSeparator_lineFeed.separator hw hn hb)
  obtain ⟨read, hread, hsame⟩ := parse_clean_iff_spells.2 ⟨hspells, hd⟩
  refine ⟨hquotes, ⟨read, parseProgram_eq_ok_iff.2 hread, hsame⟩, ?_⟩
  intro condition hcondition hbalanced
  obtain ⟨command, hcommand, hlike⟩ := parse_branchText hbalanced (Text.quotes_iff.1 hquotes)
  refine ⟨command, hcommand, fun host maxDepth calls scope state key hkey hfound => ?_⟩
  have hruns := executeCommand_branch hspells hlike hcondition hkey hfound maxDepth calls
  refine ⟨hruns, fun hhost hroom => ?_⟩
  rw [hruns] at hroom ⊢
  split at hroom
  · next hreads =>
    -- With room for the branch there is room for the filler; the trace of the call makes no
    -- difference to either.
    have hfits : ∀ after, evaluateInside (Nested.under maxDepth calls).branch program scope
        (state.branched key condition (Program.render ['\n'] program))
          ≠ .error .tooDeep after := by
      intro after hrun
      rw [hrun] at hroom
      exact hroom after rfl
    have hinside : Eval.untraced (evaluateInside (Nested.under maxDepth calls).filler program scope
        (state.branched key condition (Program.render ['\n'] program)))
          = Eval.untraced (evaluateInside (Nested.under maxDepth calls).filler program scope
              state) :=
      (evaluateInside_ignoresTrace (evaluate_ignoresTrace hhost maxDepth _) program scope).congr rfl
    rw [if_pos hreads, ← evaluateInside_filler hfits, untraced_branchEnd, hinside,
      ← untraced_branchEnd]
  · exact absurd rfl (hroom _)

end

open StandardStack

/-- A state with one frame, in which branches mean something and nothing else does. -/
def branchesOnly : Host.alone.State :=
  { State.initial () with
    store := Store.empty.root.2.bind 0 branchKey (.action (.builtin .branch)) }

theorem find?_branchesOnly :
    branchesOnly.store.find? 0 branchKey = some (.action (.builtin .branch)) :=
  (Store.find?_bind Nat.one_pos _ _ _).trans (if_pos rfl)

/-- A program whose words, strings and fillers need quoting, with a branch of its own in it, in a
    state whose one frame binds the key of a branch. -/
theorem quoted_runs_alike_of_nested :
    let program : Program :=
      [branchCommand ['1'] ['x', '\\', ';', ' ', '(', ')'],
        .mk [.word ['}', ' '] none, .filler [.mk [.string ['\\', '{'] none] none] none] none]
    let code := Program.render ['\n'] program
    let state := branchesOnly
    (Program.WellFormed program ∧ Program.Every Part.Native program
        ∧ Program.Every Part.Balanced program ∧ Program.nesting program < nestingLimit
        ∧ Program.print ['\n'] program = .ok code)
      ∧ ∃ command, parse (branchText ['0'] code) = .ok ⟨[command], .clean⟩
        ∧ executeCommand 10 0 command 0 state
            = branchEnd branchKey (evaluateInside (Nested.under 10 0).branch program 0
                (state.branched branchKey ['0'] code))
        ∧ (∃ output after, executeCommand 10 0 command 0 state = .ok output after)
        ∧ Eval.untraced (executeCommand 10 0 command 0 state)
          = Eval.untraced (branchEnd branchKey
              (evaluateInside (Nested.under 10 0).filler program 0 state)) := by
  intro program code state
  have hends : (match branchEnd branchKey (evaluateInside (Nested.under 10 0).branch program 0
      (state.branched branchKey ['0'] code)) with
    | .ok _ _ => true
    | .error _ _ => false) = true := by
    decide +kernel
  have hw : Program.WellFormed program := by
    simp [program, branchCommand, Program.WellFormed, Command.WellFormed, Part.AllWellFormed,
      Part.WellFormed]
  have hn : Program.Every Part.Native program := by
    simp [program, branchCommand, Program.Every, Command.Every, Part.AllEvery, Part.Every,
      Part.Native]
  have hb : Program.Every Part.Balanced program := by
    simp only [program, branchCommand, Program.Every, Command.Every, Part.AllEvery, Part.Every,
      Part.Balanced]
    decide
  have hd : Program.nesting program < nestingLimit := by decide +kernel
  have hcode : Program.print ['\n'] program = .ok code :=
    Program.print_eq_ok_iff.2 ⟨by decide +kernel, rfl⟩
  obtain ⟨-, -, hruns⟩ := quoted_runs_alike hw hn hb hd hcode
  obtain ⟨command, hcommand, hrun⟩ := hruns ['0'] (List.cons_ne_nil _ _) (by decide)
  obtain ⟨hresult, huntraced⟩ :=
    hrun Host.alone 10 0 0 state branchKey ofPattern_branch find?_branchesOnly
  rw [if_pos (by decide +kernel)] at hresult
  rw [← hresult] at hends
  cases hend : executeCommand 10 0 command 0 state with
  | error fault after =>
    rw [hend] at hends
    cases hends
  | ok output after =>
    rw [hend] at hresult huntraced
    refine ⟨⟨hw, hn, hb, hd, hcode⟩, command, hcommand, hend.trans hresult,
      ⟨output, after, hend⟩, ?_⟩
    rw [hend]
    refine huntraced (fun action => action.elim) fun after htooDeep => ?_
    cases htooDeep

/-- Where little room is left on the stack, fillers can be written down and quoted, but what is read
    of them as a branch is a fault, where evaluating them as they stand would throw. A foreign part
    is written by its label, and what is read is a word. -/
theorem quoted_runs_otherwise :
    let deep := nestedFillers 115
    let state : Host.alone.State := { branchesOnly with depth := 149 }
    let other : Program := [.mk [.word ['a'] none, .foreign "Other".toList] none]
    (Program.WellFormed deep ∧ Program.Every Part.Native deep ∧ Program.Every Part.Balanced deep
      ∧ ∃ code command, Program.print ['\n'] deep = .ok code
        ∧ (∃ read, parseProgram code = .ok read ∧ Program.same read deep = true)
        ∧ parse (branchText ['1'] code) = .ok ⟨[command], .clean⟩
        ∧ executeCommand 150 740 command 0 state
          = .error .tooDeep (state.branched branchKey ['1'] code)
        ∧ ∃ after, evaluateInside (Nested.under 150 740).filler deep 0 state
          = .ok (.error (depthMessage 150)) after)
    ∧ Program.WellFormed other ∧ Program.Every Part.Balanced other
      ∧ ∃ code, Program.print ['\n'] other = .ok code
        ∧ (parseProgram code).toOption.map (Program.same · other) = some false := by
  intro deep state other
  have hw : Program.WellFormed deep := nestedFillers.wellFormed _
  have hn : Program.Every Part.Native deep := nestedFillers.every (fun _ => trivial) _
  have hb : Program.Every Part.Balanced deep := nestedFillers.every (fun _ => trivial) _
  have hnesting : Program.nesting deep = 115 := nestedFillers.nesting_eq 115
  have hwrite : Program.print ['\n'] deep = .ok (Program.render ['\n'] deep) :=
    Program.print_eq_ok_iff.2 ⟨by rw [hnesting]; decide, rfl⟩
  have hspells : Spells (Program.render ['\n'] deep) deep :=
    .program (Program.spells_render deep isCommandSeparator_lineFeed.separator hw hn hb)
  have hread := (parseProgramWithin_of_spells hspells nestingLimit).1 (by rw [hnesting]; decide)
  have hquotes := Program.render_quotes isCommandSeparator_lineFeed hn hb
  obtain ⟨command, hcommand, hlike⟩ :=
    parse_branchText (show Text.Balanced ['1'] by decide) (Text.quotes_iff.1 hquotes)
  have hfound : state.store.find? 0 branchKey = some (.action (.builtin .branch)) :=
    find?_branchesOnly
  have hruns := executeCommand_branch hspells hlike (List.cons_ne_nil _ _) ofPattern_branch hfound
    150 740
  rw [hnesting, if_neg (by decide)] at hruns
  have hends : (match evaluateInside (Nested.under 150 740).filler deep 0 state with
      | .ok output _ => some output
      | .error _ _ => none) = some (.error (depthMessage 150)) := by
    decide +kernel
  have hthrows : ∃ after, evaluateInside (Nested.under 150 740).filler deep 0 state
      = .ok (.error (depthMessage 150)) after := by
    split at hends
    · next output after hend =>
      obtain rfl := Option.some.inj hends
      exact ⟨after, hend⟩
    · cases hends
  refine ⟨⟨hw, hn, hb, _, command, hwrite, hread, hcommand, hruns, hthrows⟩, ?_, ?_,
    "a Other".toList,
    Program.print_eq_ok_iff.2 ⟨by decide, by decide +kernel⟩, by decide +kernel⟩
  · simp [other, Program.WellFormed, Command.WellFormed, Part.AllWellFormed, Part.WellFormed]
  · simp [other, Program.Every, Command.Every, Part.AllEvery, Part.Every, Part.Balanced]

end Phrasebook
