import Phrasebook.Proofs.Evaluation.Branch
import Phrasebook.Proofs.Evaluation.Frames

/-! # The arguments of a call

A command is called under the key that binding it would use, with one argument for each gap, in the
order in which the gaps stand.

* `Part.AllGive` — the arguments that the parts of a command come to, and the states on the way.
* `gather_eq_ready_iff` — the calls that commands are reduced to.
* `Store.Nearest` — what a key means, and the frame that says so.
* `find?_bindActions` — an action is bound under the key of its pattern.
* `called_as_bound` — the calls of a command, and of the actions that it means.
-/

namespace Phrasebook

variable {host : Host}

/-! ## Arguments -/

theorem Call.withWord_eq_ready {call : Call} {text : Text} {places : List KeyPart}
    {args : List Value} (h : call.withWord text = .ready places args) :
    ∃ rest, call = .ready rest args ∧ places = .word text :: rest := by
  cases call with
  | ready rest args' =>
    cases h
    exact ⟨rest, rfl, rfl⟩
  | thrown value => cases h

theorem Call.withArg_eq_ready {call : Call} {arg : Value} {places : List KeyPart}
    {args : List Value} (h : call.withArg arg = .ready places args) :
    ∃ rest others, call = .ready rest others ∧ places = .gap :: rest ∧ args = arg :: others := by
  cases call with
  | ready rest others =>
    cases h
    exact ⟨rest, others, rfl, rfl, rfl⟩
  | thrown value => cases h

section

variable [CallStack]

/-- From one state on to another, the parts give the arguments in order: a string gives itself, a
    filler gives the value that its program comes to in a new frame inside the scope, and a word
    gives nothing. No filler throws. -/
inductive Part.AllGive (nested : Nested host) (scope : FrameId) :
    List Part → host.State → List Value → host.State → Prop where
  | nil {state : host.State} : AllGive nested scope [] state [] state
  | word {text : Text} {at? : Option Position} {rest : List Part} {state after : host.State}
      {args : List Value} : AllGive nested scope rest state args after →
      AllGive nested scope (.word text at? :: rest) state args after
  | string {text : Text} {at? : Option Position} {rest : List Part} {state after : host.State}
      {args : List Value} : AllGive nested scope rest state args after →
      AllGive nested scope (.string text at? :: rest) state (.string text :: args) after
  | filler {content : List Command} {at? : Option Position} {rest : List Part}
      {state middle after : host.State} {args : List Value} {output : Output} :
      evaluateInside nested.filler content scope state = .ok output middle →
      output.isThrown = false →
      AllGive nested scope rest middle args after →
      AllGive nested scope (.filler content at? :: rest) state (output.value :: args) after

/-- What is made of a filler: its value is an argument, or what it throws is thrown. -/
theorem gather_filler (nested : Nested host) (scope : FrameId) (content : List Command)
    (at? : Option Position) (rest : List Part) :
    gather nested scope (.filler content at? :: rest)
      = evaluateInside nested.filler content scope >>= fun output =>
        if output.isThrown then pure (.thrown output.value)
        else do return (← gather nested scope rest).withArg output.value := by
  rw [gather, evaluateInside, bind_assoc]
  refine bind_congr fun frame => bind_congr fun output => ?_
  cases output <;> rfl

section

variable {nested : Nested host} {scope : FrameId} {parts : List Part} {state after : host.State}
  {args : List Value}

/-- The parts that give arguments are reduced to a call. -/
theorem Part.AllGive.gather_eq (h : Part.AllGive nested scope parts state args after) :
    gather nested scope parts state = .ok (.ready (parts.map KeyPart.ofPart) args) after := by
  induction h with
  | nil => rfl
  | word _ ih => exact Eval.bind_eq_ok_iff.2 ⟨_, _, ih, rfl⟩
  | string _ ih => exact Eval.bind_eq_ok_iff.2 ⟨_, _, ih, rfl⟩
  | filler hcontent hthrown _ ih =>
    rw [gather_filler]
    refine Eval.bind_eq_ok_iff.2 ⟨_, _, hcontent, ?_⟩
    rw [hthrown]
    exact Eval.bind_eq_ok_iff.2 ⟨_, _, ih, rfl⟩

/-- The parts that are reduced to a call give its arguments. -/
theorem allGive_of_gather {places : List KeyPart}
    (h : gather nested scope parts state = .ok (.ready places args) after) :
    Part.AllGive nested scope parts state args after := by
  induction parts generalizing state places args with
  | nil =>
    cases h
    exact .nil
  | cons part rest ih =>
    cases part with
    | word text at? =>
      obtain ⟨call, middle, hrest, hcall⟩ := Eval.bind_eq_ok_iff.1 h
      injection hcall with hcall hmiddle
      obtain ⟨others, rfl, rfl⟩ := Call.withWord_eq_ready hcall
      exact .word (ih (hmiddle ▸ hrest))
    | string text at? =>
      obtain ⟨call, middle, hrest, hcall⟩ := Eval.bind_eq_ok_iff.1 h
      injection hcall with hcall hmiddle
      obtain ⟨others, args', rfl, rfl, rfl⟩ := Call.withArg_eq_ready hcall
      exact .string (ih (hmiddle ▸ hrest))
    | filler content at? =>
      rw [gather_filler] at h
      obtain ⟨output, middle, hcontent, h⟩ := Eval.bind_eq_ok_iff.1 h
      cases hthrown : output.isThrown with
      | true =>
        rw [hthrown] at h
        cases h
      | false =>
        rw [hthrown] at h
        obtain ⟨call, last, hrest, hcall⟩ := Eval.bind_eq_ok_iff.1 h
        injection hcall with hcall hlast
        obtain ⟨others, args', rfl, rfl, rfl⟩ := Call.withArg_eq_ready hcall
        exact .filler hcontent hthrown (ih (hlast ▸ hrest))
    | foreign label => cases h

/-- A command is reduced to a call exactly if its parts give arguments, and then the call has the
    places of the parts, whatever the fillers have come to. -/
theorem gather_eq_ready_iff {places : List KeyPart} :
    gather nested scope parts state = .ok (.ready places args) after
      ↔ places = parts.map KeyPart.ofPart ∧ Part.AllGive nested scope parts state args after := by
  constructor
  · intro h
    have hgive := allGive_of_gather h
    have hready := hgive.gather_eq
    rw [h] at hready
    injection hready with hcall
    injection hcall with hplaces
    exact ⟨hplaces, hgive⟩
  · rintro ⟨rfl, h⟩
    exact h.gather_eq

/-- There is one argument for each gap. -/
theorem Part.AllGive.length_eq (h : Part.AllGive nested scope parts state args after) :
    args.length = (Key.ofParts (parts.map KeyPart.ofPart)).arity := by
  induction h with
  | nil => rfl
  | word _ ih => exact ih
  | string _ ih =>
    rw [List.length_cons, ih]
    exact (Key.arity_ofParts_gap _).symm
  | filler _ _ _ ih =>
    rw [List.length_cons, ih]
    exact (Key.arity_ofParts_gap _).symm

end

end

/-! ## Actions -/

/-- Of the frames of the scope, this is the first that binds the key, and it binds it to the
    entry. -/
def Store.Nearest {Act : Type} (store : Store Act) (scope frame : FrameId) (key : Key)
    (entry : Entry Act) : Prop :=
  ∃ nearer further, store.chain scope = nearer ++ frame :: further
    ∧ (∀ other ∈ nearer, (store.bindings other).find? key = none)
    ∧ (store.bindings frame).find? key = some entry

theorem Store.Nearest.find?_eq {Act : Type} {store : Store Act} {scope frame : FrameId} {key : Key}
    {entry : Entry Act} (h : store.Nearest scope frame key entry) :
    store.find? scope key = some entry := by
  obtain ⟨nearer, further, hchain, hnearer, hframe⟩ := h
  have hpassed : (nearer.findSome? fun other => (store.bindings other).find? key) = none :=
    List.findSome?_eq_none_iff.2 hnearer
  rw [find?, hchain, List.findSome?_append, hpassed, List.findSome?_cons, hframe]
  rfl

/-- What is bound in a frame after actions were bound there was bound there before, or is one of the
    actions, under the key of its pattern. That is so even if one of the patterns describes no
    key. -/
theorem find?_bindActions [CallStack] {Act : Type} {frame : FrameId} {key : Key} {entry : Entry Act}
    {actions : List (Text × Action Act)} {store : Store Act}
    (h : ((bindActions store frame actions).1.bindings frame).find? key = some entry) :
    (store.bindings frame).find? key = some entry
      ∨ ∃ pattern action, (pattern, action) ∈ actions ∧ Key.ofPattern pattern = .ok key
        ∧ entry = .action action := by
  induction actions generalizing store with
  | nil => exact .inl h
  | cons first rest ih =>
    obtain ⟨pattern, action⟩ := first
    rw [bindActions] at h
    split at h
    · exact .inl h
    · next firstKey hpattern =>
      have hrest : ((bindActions (store.bind frame firstKey (.action action)) frame
          rest).1.bindings frame).find? key = some entry := by
        split at h
        · next hbind => rw [hbind]; exact h
        · next hbind => rw [hbind]; exact h
      -- What the later actions leave as it is was there before or is the first action.
      obtain hbefore | ⟨other, otherAction, hmem, hkey, hentry⟩ := ih hrest
      · by_cases hlt : frame < store.size
        · rw [Store.bindings_bind _ _ _ _ _ hlt, if_pos rfl, Bindings.find?_insert] at hbefore
          split at hbefore
          · next hkey =>
            cases hbefore
            exact .inr ⟨pattern, action, List.mem_cons_self, hkey ▸ hpattern, rfl⟩
          · exact .inl hbefore
        · rw [Store.bindings_bind_of_le (Nat.not_lt.1 hlt)] at hbefore
          exact .inl hbefore
      · exact .inr ⟨other, otherAction, List.mem_cons_of_mem _ hmem, hkey, hentry⟩

/-! ## Calls -/

section

variable [CallStack]

/-- A command that means an action performs it. -/
theorem execute_of_nearest {nested : Nested host} {scope frame : FrameId} {command : Command}
    {state after : host.State} {args : List Value} {action : Action host.Act}
    (h : Part.AllGive nested scope command.parts state args after)
    (hn : after.store.Nearest scope frame (.ofCommand command) (.action action)) :
    execute nested scope command state
      = callEnd (.ofCommand command) (perform nested scope action args
          (after.record (.dispatched (.ofCommand command) args (some (.action action))))) := by
  rw [execute_of_gather h.gather_eq, hn.find?_eq, apply_action]

/-- In a scope without actions of an embedding program, fillers leave what is bound as it is. -/
theorem Part.AllGive.nearest {scope frame : FrameId} {maxDepth : Int} {calls : Nat}
    {parts : List Part} {state after : host.State} {args : List Value} {key : Key}
    {entry : Entry host.Act}
    (h : Part.AllGive (.under maxDepth calls) scope parts state args after)
    (hs : state.store.Native scope) (hn : state.store.Nearest scope frame key entry) :
    after.store.Nearest scope frame key entry := by
  have hkept := gather_keeps (evaluate_keeps hs maxDepth calls) parts state (.refl _ _)
  rw [h.gather_eq] at hkept
  have hbindings : ∀ other ∈ state.store.chain scope,
      after.store.bindings other = state.store.bindings other :=
    fun other hother => hkept.2.bindings_eq other (hs.exist other hother) trivial
  obtain ⟨nearer, further, hchain, hnearer, hframe⟩ := hn
  rw [hchain] at hbindings
  refine ⟨nearer, further, (hkept.2.chain_eq hs.scope_lt).trans hchain, ?_, ?_⟩
  · intro other hother
    rw [hbindings other (List.mem_append_left _ hother)]
    exact hnearer other hother
  · rw [hbindings frame (List.mem_append_right _ List.mem_cons_self)]
    exact hframe

/-- A command is called under the key that it would be bound under, whatever its fillers come to,
    and with the arguments that its parts give, one for each gap. Actions are bound under the keys
    of their patterns. So a command whose fillers do not throw, and whose key is that of the
    pattern of an action, performs the action with as many arguments as the pattern has gaps, if
    the nearest frame that binds the key binds it to the action when the key is looked up. In a
    scope without actions of an embedding program it is enough that it does so when the command
    begins. -/
theorem called_as_bound (maxDepth : Int) (calls : Nat) (command : Command) (scope : FrameId)
    (state : host.State) :
    (∀ places args after,
      buildCall maxDepth calls command scope state = .ok (.ready places args) after ↔
      places = command.parts.map KeyPart.ofPart
        ∧ Part.AllGive (.under maxDepth calls) scope command.parts state args after)
    ∧ (∀ places args after,
      buildCall maxDepth calls command scope state = .ok (.ready places args) after →
      Key.ofParts places = .ofCommand command ∧ args.length = (Key.ofParts places).arity)
    ∧ (∀ (store : Store host.Act) (frame : FrameId) (actions : List (Text × Action host.Act))
        (key : Key) (entry : Entry host.Act),
      ((bindActions store frame actions).1.bindings frame).find? key = some entry →
      (store.bindings frame).find? key = some entry
        ∨ ∃ pattern action, (pattern, action) ∈ actions ∧ Key.ofPattern pattern = .ok key
          ∧ entry = .action action)
    ∧ ∀ (pattern : Text) (action : Action host.Act) (key : Key) (frame : FrameId)
        (args : List Value) (after : host.State),
      Key.ofPattern pattern = .ok key → Key.ofCommand command = key →
      Part.AllGive (.under maxDepth calls) scope command.parts state args after →
      (after.store.Nearest scope frame key (.action action)
        ∨ state.store.Native scope ∧ state.store.Nearest scope frame key (.action action)) →
      args.length = key.arity
        ∧ executeCommand maxDepth calls command scope state
          = callEnd key (perform (.under maxDepth calls) scope action args
              (after.record (.dispatched key args (some (.action action))))) := by
  refine ⟨fun _ _ _ => gather_eq_ready_iff, ?_, fun _ _ _ _ _ => find?_bindActions, ?_⟩
  · intro places args after h
    obtain ⟨rfl, hgive⟩ := gather_eq_ready_iff.1 h
    exact ⟨rfl, hgive.length_eq⟩
  · rintro pattern action _ frame args after - rfl hgive hbound
    have hnearest : after.store.Nearest scope frame (.ofCommand command) (.action action) := by
      obtain hafter | ⟨hnative, hbefore⟩ := hbound
      · exact hafter
      · exact hgive.nearest hnative hbefore
    exact ⟨hgive.length_eq, execute_of_nearest hgive hnearest⟩

end

open StandardStack

/-- A command in capitals, with a filler in its gap that binds a name in a branch. -/
theorem called_as_bound_of_capitals :
    let store : Store Empty := ((bindActions Store.empty.root.2 0 builtinActions).1.child 0).2
    let state : Host.alone.State := { State.initial () with store }
    let command : Command := .mk [.word "PRINT".toList none,
      .filler [branchCommand ['1'] "name {2} as {y}".toList] none] none
    let key : Key := ⟨[.word "print".toList, .gap]⟩
    Key.ofPattern Builtin.print.pattern = .ok key ∧ Key.ofCommand command = key
      ∧ store.Nearest 1 0 key (.action (.builtin .print))
      ∧ ∃ args after, Part.AllGive (.under 10 0) 1 command.parts state args after
        ∧ args.length = 1
        ∧ executeCommand 10 0 command 1 state
          = callEnd key (perform (.under 10 0) 1 (.builtin .print) args
              (after.record (.dispatched key args (some (.action (.builtin .print)))))) := by
  intro store state command key
  have hnative : store.Native 1 := ⟨by decide +kernel, fun _ _ _ action => action.elim⟩
  have hnearest : store.Nearest 1 0 key (.action (.builtin .print)) :=
    ⟨[1], [], by decide +kernel, by decide +kernel, by decide +kernel⟩
  have hkey : Key.ofPattern Builtin.print.pattern = .ok key :=
    Key.ofPattern_eq_ok (by decide +kernel)
  have hcommand : Key.ofCommand command = key := by decide +kernel
  have hready : (match buildCall 10 0 command 1 state with
      | .ok (.ready _ args) _ => some args
      | .ok (.thrown _) _ | .error _ _ => none) = some [.nothing] := by
    decide +kernel
  obtain ⟨hcalls, -, -, hperforms⟩ := called_as_bound 10 0 command 1 state
  cases hcall : buildCall 10 0 command 1 state with
  | error fault after =>
    rw [hcall] at hready
    cases hready
  | ok call after =>
    rw [hcall] at hready
    cases call with
    | thrown value => cases hready
    | ready places args =>
      obtain rfl := Option.some.inj hready
      obtain ⟨-, hgive⟩ := (hcalls places [.nothing] after).1 hcall
      obtain ⟨-, hruns⟩ := hperforms _ (.builtin .print) key 0 _ after hkey hcommand hgive
        (.inr ⟨hnative, hnearest⟩)
      exact ⟨hkey, hcommand, hnearest, _, after, hgive, rfl, hruns⟩

end Phrasebook
