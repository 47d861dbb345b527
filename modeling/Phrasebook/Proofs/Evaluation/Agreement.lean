import Phrasebook.Proofs.Evaluation.Comparison
import Phrasebook.Proofs.Evaluation.Soundness
import Phrasebook.Proofs.Tree.Alike

/-! # Evaluations of programs that are alike

Under every comparison, the evaluations of two programs that are alike agree: they give the same
output or end in the same fault, and states that were related before are related after them. The
depth is what it was before.

* `Output.Agree`, `Call.Agree` — how the results of two evaluations agree.
* `performBuiltin_agrees`, `gather_agrees`, `execute_agrees`, `runCommands_agrees` — one level of
  nesting.
* `evaluate_agrees` — programs, by induction on the levels that are left.
-/

namespace Phrasebook

variable {host : Host}

/-! ## Agreement -/

/-- The outputs are the same, and what they throw has been thrown. -/
def Output.Agree (thrown : Option Value) (output output' : Output) : Prop :=
  output = output' ∧ output.thrown? = thrown

/-- The calls have the same key and the same arguments, or the same value has been thrown. -/
def Call.Agree (thrown : Option Value) (call call' : Call) : Prop :=
  call.thrown? = thrown ∧
    match call, call' with
    | .ready places args, .ready places' args' =>
      Key.ofParts places = Key.ofParts places' ∧ args = args'
    | .thrown value, .thrown value' => value = value'
    | .ready _ _, .thrown _ | .thrown _, .ready _ _ => False

/-- Programs that are alike are evaluated alike. -/
def Nested.Agree (C : Comparison host) (nested : Nested host) : Prop :=
  ∀ calls {program program' : Program}, Program.Alike program program' →
    ∀ (place : C.Place) (depth : Nat), C.Relates none place depth
      (nested.evaluate calls program (C.left place))
      (nested.evaluate calls program' (C.right place)) Output.Agree

section

variable {C : Comparison host} {place : C.Place} {depth : Nat}

theorem agree_of_output (output : Output) :
    C.Relates none place depth (pure output) (pure output) Output.Agree := by
  cases output with
  | thrown value => exact .throws (.of_pure ⟨rfl, rfl⟩)
  | returned value => exact .of_pure ⟨rfl, rfl⟩
  | lastValue value => exact .of_pure ⟨rfl, rfl⟩

theorem Call.Agree.withWord {thrown : Option Value} {call call' : Call}
    (h : Call.Agree thrown call call') {text text' : Text} (ht : text.lower = text'.lower) :
    Call.Agree thrown (call.withWord text) (call'.withWord text') := by
  match call, call', h with
  | .ready places args, .ready places' args', ⟨hthrown, hkey, hargs⟩ =>
    refine ⟨hthrown, ?_, hargs⟩
    have hplace : KeyPart.lower (.word text) = KeyPart.lower (.word text') :=
      congrArg KeyPart.word ht
    simp only [Key.ofParts, List.map_cons, Key.mk.injEq] at hkey ⊢
    rw [hplace, hkey]
  | .thrown value, .thrown value', h => exact h

theorem Call.Agree.withArg {thrown : Option Value} {call call' : Call}
    (h : Call.Agree thrown call call') (arg : Value) :
    Call.Agree thrown (call.withArg arg) (call'.withArg arg) := by
  match call, call', h with
  | .ready places args, .ready places' args', ⟨hthrown, hkey, hargs⟩ =>
    refine ⟨hthrown, ?_, congrArg (arg :: ·) hargs⟩
    simp only [Key.ofParts, List.map_cons, Key.mk.injEq] at hkey ⊢
    rw [hkey]
  | .thrown value, .thrown value', h => exact h

variable [CallStack] {nested : Nested host}

/-! ## Built-in actions -/

theorem readProgram_agrees (calls : Nat) (text : Text) :
    C.Relates none place depth (readProgram calls text) (readProgram calls text)
      fun thrown read read' => read = read' ∧ thrown = none := by
  unfold readProgram
  split
  · exact .of_pure ⟨rfl, rfl⟩
  · exact .of_pure ⟨rfl, rfl⟩
  · exact .of_throw

theorem bindName_agrees (calls : Nat) (value name : Value) :
    C.Relates none place depth (bindName calls (C.left place) value name)
      (bindName calls (C.right place) value name) Output.Agree := by
  unfold bindName
  cases name.string? with
  | none => exact agree_of_output _
  | some text =>
    refine (readProgram_agrees _ text).bind ?_
    rintro _ read _ ⟨rfl, rfl⟩
    cases read with
    | error e => exact agree_of_output _
    | ok program =>
      dsimp only
      split
      · exact agree_of_output _
      · next key hkey => exact .register_bind (arity_of_nameKey? hkey) (agree_of_output _)

theorem runBranch_agrees (hn : nested.Agree C) (condition branch : Value) :
    C.Relates none place depth (runBranch nested (C.left place) condition branch)
      (runBranch nested (C.right place) condition branch) Output.Agree := by
  unfold runBranch
  split
  · exact agree_of_output _
  · cases branch.string? with
    | none => exact agree_of_output _
    | some text =>
      refine (readProgram_agrees _ text).bind ?_
      rintro _ read _ ⟨rfl, rfl⟩
      cases read with
      | error e => exact agree_of_output _
      | ok program =>
        refine .inChild_bind (fun inner => hn _ (.refl program) inner depth) ?_
        rintro _ output _ ⟨rfl, rfl⟩
        cases output with
        | thrown value => exact .of_pure ⟨rfl, rfl⟩
        | returned value => exact .of_pure ⟨rfl, rfl⟩
        | lastValue value => exact .of_pure ⟨rfl, rfl⟩

theorem performBuiltin_agrees (hn : nested.Agree C) (action : Builtin)
    (args : List Value) :
    C.Relates none place depth (performBuiltin nested (C.left place) action args)
      (performBuiltin nested (C.right place) action args) Output.Agree := by
  match action, args with
  | .branch, [condition, code] => exact runBranch_agrees hn condition code
  | .name, [value, spelling] => exact bindName_agrees _ value spelling
  | .print, [value] => exact .emit_bind (agree_of_output _)
  | .throw, [value] => exact agree_of_output _
  -- Any other number of arguments is a fault.
  | .branch, [] | .branch, [_] | .branch, _ :: _ :: _ :: _ => exact .of_throw
  | .name, [] | .name, [_] | .name, _ :: _ :: _ :: _ => exact .of_throw
  | .print, [] | .print, _ :: _ :: _ => exact .of_throw
  | .throw, [] | .throw, _ :: _ :: _ => exact .of_throw

/-! ## Commands -/

theorem gather_agrees (hn : nested.Agree C) : ∀ {parts parts' : List Part},
    Part.AllAlike parts parts' →
    C.Relates none place depth (gather nested (C.left place) parts)
      (gather nested (C.right place) parts') Call.Agree
  | _, _, .nil => .of_pure ⟨rfl, rfl, rfl⟩
  | _, _, .cons (.word ht) hrest =>
    (gather_agrees hn hrest).bind fun _ _ _ hcall => .of_pure (hcall.withWord ht)
  | _, _, .cons .string hrest =>
    (gather_agrees hn hrest).bind fun _ _ _ hcall => .of_pure (hcall.withArg _)
  -- A filler is evaluated in a frame of its own, the parts behind it at the old place.
  | _, _, .cons (.filler hcontent) hrest => by
    refine .inChild_bind (fun inner => hn _ hcontent inner depth) ?_
    rintro _ output _ ⟨rfl, rfl⟩
    cases output with
    | thrown value => exact .of_pure ⟨rfl, rfl⟩
    | returned value =>
      exact (gather_agrees hn hrest).bind fun _ _ _ hcall => .of_pure (hcall.withArg value)
    | lastValue value =>
      exact (gather_agrees hn hrest).bind fun _ _ _ hcall => .of_pure (hcall.withArg value)
  | _, _, .cons .foreign _ => .of_throw

theorem apply_agrees (hn : nested.Agree C) (key : Key) (args : List Value)
    {found : Option (Entry host.Act)} (hfound : ∀ action, found ≠ some (.action (.host action))) :
    C.Relates (missing? key found) place depth (apply nested (C.left place) key args found)
      (apply nested (C.right place) key args found) Output.Agree := by
  match found, hfound with
  | none, _ => exact .of_pure ⟨rfl, rfl⟩
  | some (.stored value), _ => exact agree_of_output _
  | some (.action (.builtin action)), _ =>
    refine (performBuiltin_agrees hn action args).bind ?_
    rintro _ output _ ⟨rfl, rfl⟩
    dsimp only
    split
    · exact .record_bind rfl (.of_pure ⟨rfl, rfl⟩)
    · exact .of_pure ⟨rfl, rfl⟩
  | some (.action (.host action)), hfound => exact (hfound action rfl).elim
  | some (.foreign shown kind), _ => exact .of_throw

theorem execute_agrees (hn : nested.Agree C) {command command' : Command}
    (h : command.Alike command') :
    C.Relates none place depth (execute nested (C.left place) command)
      (execute nested (C.right place) command') Output.Agree := by
  cases h with
  | mk hparts =>
    refine (gather_agrees hn hparts).bind ?_
    rintro _ call call' ⟨rfl, hcall⟩
    match call, call', hcall with
    | .thrown value, .thrown value', hvalue =>
      subst hvalue
      exact .record_bind rfl (.of_pure ⟨rfl, rfl⟩)
    | .ready places args, .ready places' args', ⟨hkey, hargs⟩ =>
      subst hargs
      dsimp only
      rw [← hkey]
      exact .dispatch_bind fun found hfound => apply_agrees hn _ _ hfound

/-! ## Programs -/

theorem runCommands_agrees (hn : nested.Agree C) :
    ∀ {program program' : List Command} (last : Value), Program.Alike program program' →
    C.Relates none place depth (runCommands nested (C.left place) program last)
      (runCommands nested (C.right place) program' last) Output.Agree
  | _, _, _, .nil => .of_pure ⟨rfl, rfl⟩
  | _, _, _, .cons hcommand hrest => by
    refine .get_bind fun state state' hs => ?_
    rw [hs.depth_left, hs.depth_right]
    refine .record_bind rfl ?_
    refine (execute_agrees hn hcommand).bind ?_
    rintro _ output _ ⟨rfl, rfl⟩
    cases output with
    | thrown value => exact .of_pure ⟨rfl, rfl⟩
    | returned value => exact runCommands_agrees hn value hrest
    | lastValue value => exact runCommands_agrees hn value hrest

end

variable (C : Comparison host)

theorem refuse_agrees (maxDepth : Int) (place : C.Place) (depth : Nat) :
    C.Relates none place depth (refuse maxDepth) (refuse maxDepth) Output.Agree := by
  unfold refuse
  split
  · exact agree_of_output _
  · exact .of_throw

variable [CallStack]

theorem evaluateWithin_agrees (maxDepth : Int) : ∀ room calls : Nat,
    Nested.Agree C ⟨calls, evaluateWithin maxDepth room⟩
  | 0, _, calls, _, _, _, place, depth => .onStack calls (refuse_agrees C maxDepth place depth)
  | room + 1, _, calls, _, _, h, _, _ =>
    have hrun := runCommands_agrees (evaluateWithin_agrees maxDepth room calls) .nothing h
    .onStack calls hrun.nest

/-- Programs that are alike are evaluated alike under every limit of the depth, and the depth is
    afterwards what it was before. -/
theorem evaluate_agrees (maxDepth : Int) (calls : Nat) :
    Nested.Agree C (.under maxDepth calls) := by
  intro calls program program' h place depth
  refine .get_bind fun state state' hs => ?_
  rw [hs.depth_left, hs.depth_right]
  exact evaluateWithin_agrees C maxDepth _ calls calls h place depth

end Phrasebook
