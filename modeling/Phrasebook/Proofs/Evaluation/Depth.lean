import Phrasebook.Proofs.Evaluation.Compositional
import Phrasebook.Proofs.Evaluation.Ensures
import Phrasebook.Proofs.Evaluation.Sequence

/-! # The depth of an evaluation

However an evaluation ends, the depth is back where it was; and in between no program is opened and
no command begins deeper than the limit allows. Nothing is asked of the program or of the frames:
foreign parts, entries that do not belong into a frame and actions of an embedding program may
occur.

* `TraceEvent.Between` — the depths that an event may tell of.
* `State.LeadsTo` — what has become of a state while programs were evaluated from another one on.
* `Eval.KeepsDepth` — computations that leave the depth as they find it.
* `Eval.Within.compositional` — the steps of an evaluation, in the midst of it.
* `evaluate_keepsDepth` — programs, by induction on the levels that are left.
-/

namespace Phrasebook

variable {Act Memory α : Type}

/-! ## States along an evaluation -/

/-- The event tells of no program and no command but such as are more than `low` and at most `high`
    deep. -/
def TraceEvent.Between (low : Nat) (high : Int) : TraceEvent Act → Prop
  | .opened depth | .began depth => low < depth ∧ depth ≤ high
  | .closed | .dispatched _ _ _ | .thrownInFiller _ | .thrownBy _ _ => True

/-- Since the state `before` the depth has come to be `depth`, and whatever programs were opened and
    whatever commands began, they were deeper than that state and within the limit. -/
structure State.LeadsTo (limit : Int) (before : State Act Memory) (depth : Nat)
    (state : State Act Memory) : Prop where
  depth_eq : state.depth = depth
  trace_eq : ∃ events, state.trace.toList = before.trace.toList ++ events ∧
    ∀ event ∈ events, event.Between before.depth limit

namespace State.LeadsTo

variable {limit : Int} {before state : State Act Memory} {depth : Nat}

theorem refl (limit : Int) (state : State Act Memory) : state.LeadsTo limit state.depth state :=
  ⟨rfl, [], (List.append_nil _).symm, nofun⟩

/-- What happened from a state within the limit on happened from before it on. -/
theorem trans {after : State Act Memory} (h : before.LeadsTo limit depth state)
    (hle : before.depth ≤ depth) (ha : state.LeadsTo limit depth after) :
    before.LeadsTo limit depth after := by
  obtain ⟨events, htrace, hevents⟩ := h.trace_eq
  obtain ⟨others, htrace', hothers⟩ := ha.trace_eq
  refine ⟨ha.depth_eq, events ++ others, by rw [htrace', htrace, List.append_assoc], ?_⟩
  intro event hmem
  obtain hmem | hmem := List.mem_append.1 hmem
  · exact hevents event hmem
  · have hdeeper := hothers event hmem
    rw [h.depth_eq] at hdeeper
    cases event with
    | opened n => exact ⟨Nat.lt_of_le_of_lt hle hdeeper.1, hdeeper.2⟩
    | began n => exact ⟨Nat.lt_of_le_of_lt hle hdeeper.1, hdeeper.2⟩
    | _ => trivial

theorem record (h : before.LeadsTo limit depth state) {event : TraceEvent Act}
    (he : event.Between before.depth limit) :
    before.LeadsTo limit depth (state.record event) := by
  obtain ⟨events, htrace, hevents⟩ := h.trace_eq
  refine ⟨h.depth_eq, events ++ [event], ?_, ?_⟩
  · rw [State.record, Array.toList_push, htrace, List.append_assoc]
  · intro other hmem
    obtain hmem | hmem := List.mem_append.1 hmem
    · exact hevents other hmem
    · rw [List.mem_singleton.1 hmem]
      exact he

/-- The depth and the trace are all that counts. -/
theorem of_same {other : State Act Memory} (h : before.LeadsTo limit depth state)
    (hdepth : other.depth = state.depth) (htrace : other.trace = state.trace) :
    before.LeadsTo limit depth other :=
  ⟨hdepth.trans h.depth_eq, htrace ▸ h.trace_eq⟩

theorem enter (h : before.LeadsTo limit depth state) (hlow : before.depth ≤ depth)
    (hhigh : depth + 1 ≤ limit) : before.LeadsTo limit (depth + 1) state.enter := by
  have hdeeper : before.LeadsTo limit (depth + 1) { state with depth := state.depth + 1 } :=
    ⟨congrArg (· + 1) h.depth_eq, h.trace_eq⟩
  refine hdeeper.record ?_
  rw [h.depth_eq]
  exact ⟨Nat.lt_succ_of_le hlow, hhigh⟩

theorem leave (h : before.LeadsTo limit (depth + 1) state) :
    before.LeadsTo limit depth state.leave := by
  have hback : before.LeadsTo limit depth { state with depth := state.depth - 1 } :=
    ⟨congrArg (· - 1) h.depth_eq, h.trace_eq⟩
  exact hback.record trivial

end State.LeadsTo

/-! ## Computations -/

/-- However the computation ends, the depth is the same as at its beginning, and no program was
    opened and no command began but deeper than that and within the limit. -/
def Eval.KeepsDepth (limit : Int) (m : Eval Act Memory α) : Prop :=
  ∀ before, match m before with
    | .ok _ after | .error _ after => before.LeadsTo limit before.depth after

/-- The computation keeps the depth at `depth`, in an evaluation that started from `before`. -/
def Eval.Within (limit : Int) (before : State Act Memory) (depth : Nat)
    (m : Eval Act Memory α) : Prop :=
  Eval.Ensures (State.LeadsTo limit before depth) (fun _ => True) m fun _ => True

namespace Eval.Within

variable {limit : Int} {before : State Act Memory} {depth : Nat}

theorem record {event : TraceEvent Act} (he : event.Between before.depth limit) :
    Within limit before depth (Eval.record event) :=
  Ensures.record fun _ hs => hs.record he

/-- A computation that keeps the depth does so in the midst of an evaluation. -/
theorem of_keepsDepth {m : Eval Act Memory α} (h : m.KeepsDepth limit)
    (hle : before.depth ≤ depth) : Within limit before depth m := by
  intro state hs
  have hkeeps := h state
  rw [hs.depth_eq] at hkeeps
  cases hm : m state with
  | ok value after =>
    rw [hm] at hkeeps
    exact ⟨trivial, hs.trans hle hkeeps⟩
  | error fault after =>
    rw [hm] at hkeeps
    exact ⟨trivial, hs.trans hle hkeeps⟩

end Eval.Within

theorem Eval.KeepsDepth.of_within {limit : Int} {m : Eval Act Memory α}
    (h : ∀ before, Within limit before before.depth m) : m.KeepsDepth limit := by
  intro before
  have hrun := h before before (.refl limit before)
  cases hm : m before with
  | ok value after =>
    rw [hm] at hrun
    exact hrun.2
  | error fault after =>
    rw [hm] at hrun
    exact hrun.2

/-! ## Programs -/

variable {host : Host} {limit : Int} {before : host.State} {depth : Nat}

/-- The actions of the embedding program keep the depth, as they do if they leave it alone and run
    programs by evaluating them under the same limit. -/
def Host.KeepsDepth (host : Host) (limit : Int) : Prop :=
  ∀ action scope args, (host.perform action scope args).KeepsDepth limit

/-- A command begins at the depth of its program, so all steps of a program keep the depth if that
    is within the limit. -/
theorem Eval.Within.compositional (hhost : host.KeepsDepth limit) (hlow : before.depth < depth)
    (hhigh : depth ≤ limit) : Eval.Compositional (Eval.Within limit before depth) where
  of_pure _ := Ensures.of_pure trivial
  of_throw _ := Ensures.of_throw trivial
  bind hm hnext := Ensures.bind hm fun value _ => hnext value
  child _ := Ensures.child fun _ hs => hs.of_same rfl rfl
  register _ _ _ := Ensures.register_stored fun _ hs => hs.of_same rfl rfl
  emit _ _ := Ensures.emit fun _ hs => hs.of_same rfl rfl
  thrownInFiller _ := .record trivial
  thrownBy _ _ := .record trivial
  dispatch_bind _ _ _ _ hnext := Ensures.get_bind fun _ _ =>
    Ensures.bind (Eval.Within.record trivial) fun _ _ => hnext _
  began_bind hnext := Ensures.get_bind fun _ hs =>
    Ensures.bind (Eval.Within.record (hs.depth_eq.symm ▸ ⟨hlow, hhigh⟩)) fun _ _ => hnext
  perform action scope? args := .of_keepsDepth (hhost action scope? args) (Nat.le_of_lt hlow)

section

variable [CallStack]

/-- Nested programs keep the depth. -/
def Nested.Within (limit : Int) (before : host.State) (depth : Nat) (nested : Nested host) : Prop :=
  ∀ calls program scope, Eval.Within limit before depth (nested.evaluate calls program scope)

/-- By induction on the levels that are left: with the depth they never add up to more than the
    limit. -/
theorem evaluateWithin_within (hhost : host.KeepsDepth limit) :
    ∀ (room depth : Nat), before.depth ≤ depth → (0 < room → (depth + room : Int) ≤ limit) →
    ∀ calls, Nested.Within limit before depth (⟨calls, evaluateWithin limit room⟩ : Nested host)
  | 0, _, _, _, _, calls, _, _ => .onStack trivial calls (.refuse (fun _ => trivial) trivial)
  | room + 1, depth, hle, hroom, _, calls, program, scope => by
    -- Only while there is room does the sum matter: with none left nothing is opened.
    have hlimit := hroom (Nat.succ_pos room)
    have hinner : Nested.Within limit before (depth + 1)
        (⟨calls, evaluateWithin limit room⟩ : Nested host) :=
      evaluateWithin_within hhost room (depth + 1) (Nat.le_succ_of_le hle) (fun _ => by omega) calls
    have hsteps := Eval.Within.compositional hhost (Nat.lt_succ_of_le hle) (by omega)
    have hrun := hsteps.runCommands hinner scope program .nothing
    have hnest : Eval.Within limit before depth
        (Eval.nest (runCommands ⟨calls, evaluateWithin limit room⟩ scope program .nothing)) :=
      .nest hrun (fun _ hs => hs.enter hle (by omega)) fun _ hs => hs.leave
    exact .onStack trivial calls hnest

theorem evaluate_within (hhost : host.KeepsDepth limit) (before : host.State) (calls : Nat) :
    Nested.Within limit before before.depth (.under limit calls : Nested host) := by
  intro calls program scope
  refine .get_bind fun state hs => ?_
  rw [hs.depth_eq]
  refine evaluateWithin_within hhost _ _ (Nat.le_refl _) (fun hpos => ?_) calls calls program scope
  simp only [room] at hpos ⊢
  omega

/-- However the evaluation of a program ends, the depth is back where it was, and no command began
    deeper than the limit allows. Where the depth has reached the limit already, an error says so
    and nothing else happens; if the limit has too many digits for that, or the stack has no room
    even to ask, there is a fault, and nothing else happens either. -/
theorem evaluate_keepsDepth {maxDepth : Int} (hhost : host.KeepsDepth maxDepth) (calls : Nat)
    (program : Program) (scope : FrameId) :
    (evaluate maxDepth calls program scope : host.Eval Output).KeepsDepth maxDepth
    ∧ ∀ state : host.State, maxDepth ≤ state.depth →
      evaluate maxDepth calls program scope state
        = if calls < CallStack.size then
            if Text.Writable maxDepth then .ok (.error (depthMessage maxDepth)) state
            else .error (.unwritable maxDepth) state
          else .error .tooDeep state := by
  refine ⟨.of_within fun before => evaluate_within hhost before calls calls program scope, ?_⟩
  exact fun state hreached => evaluate_of_reached hreached calls program scope

end

open StandardStack

/-- A host whose one action counts its calls, and a frame with an entry that does not belong there,
    which ends the evaluation in a filler. -/
theorem evaluate_keepsDepth_of_counter :
    let host : Host :=
      { Act := Unit, Memory := Nat, name? := fun _ => none, takesScope := fun _ => false,
        perform := fun _ _ _ => do
          modify fun state => { state with memory := state.memory + 1 }
          return .ok }
    let ring := Key.ofWord "ring".toList
    let odd := Key.ofWord "odd".toList
    let store := (Store.empty.root.2.bind 0 ring (.action (.host ()))).bind 0 odd
      (.foreign "42".toList "int".toList)
    let state : host.State := { State.initial 0 with store, depth := 3 }
    let program : Program := [.mk [.filler [.mk [.word "ring".toList none] none,
      .mk [.word "odd".toList none] none] none] none]
    host.KeepsDepth 5 ∧ host.KeepsDepth 3
      ∧ (∃ after, evaluate 5 0 program 0 state = .error (.unknownEntry odd "42".toList) after
        ∧ after.memory = 1 ∧ after.depth = 3
        ∧ ∀ depth, .began depth ∈ after.trace.toList → 3 < depth ∧ depth ≤ 5)
      ∧ evaluate 3 0 program 0 state = .ok (.error (depthMessage 3)) state
      ∧ evaluate 3 1000 program 0 state = .error .tooDeep state := by
  intro host ring odd store state program
  have hhost : ∀ limit, host.KeepsDepth limit := fun limit _ _ _ before =>
    (State.LeadsTo.refl limit before).of_same rfl rfl
  have hfault : (match evaluate 5 0 program 0 state with
      | .ok _ _ => none
      | .error fault after => some (fault, after.memory))
        = some (.unknownEntry odd "42".toList, 1) := by
    decide +kernel
  obtain ⟨hkeeps, -⟩ := evaluate_keepsDepth (hhost 5) 0 program 0
  obtain ⟨-, hreached⟩ := evaluate_keepsDepth (hhost 3) 0 program 0
  obtain ⟨-, hfull⟩ := evaluate_keepsDepth (hhost 3) 1000 program 0
  have hwritable : Text.Writable 3 := by decide +kernel
  replace hreached := hreached state (by decide)
  rw [if_pos (by decide), if_pos hwritable] at hreached
  replace hfull := hfull state (by decide)
  rw [if_neg (by decide)] at hfull
  refine ⟨hhost 5, hhost 3, ?_, hreached, hfull⟩
  replace hkeeps := hkeeps state
  cases hrun : evaluate 5 0 program 0 state with
  | ok output after =>
    rw [hrun] at hfault
    cases hfault
  | error fault after =>
    rw [hrun] at hfault hkeeps
    obtain ⟨hfault, hmemory⟩ := Prod.mk.inj (Option.some.inj hfault)
    obtain ⟨hdepth, events, htrace, hevents⟩ := hkeeps
    refine ⟨after, by rw [← hfault], hmemory, hdepth, fun depth hmem => ?_⟩
    have hbegan := hevents (.began depth) (by simpa [htrace, state, State.initial] using hmem)
    exact ⟨hbegan.1, Int.ofNat_le.1 hbegan.2⟩

/-- A limit that is too long to be written: the depth has reached it from the beginning, and no
    error tells of that. -/
theorem evaluate_refuses_silently :
    let maxDepth : Int := -(Text.digitBound : Int)
    let state : Host.alone.State := State.initial ()
    maxDepth ≤ state.depth
      ∧ evaluate maxDepth 0 [] 0 state ≠ .ok (.error (depthMessage maxDepth)) state
      ∧ evaluate maxDepth 0 [] 0 state = .error (.unwritable maxDepth) state := by
  intro maxDepth state
  have hneg : maxDepth ≤ 0 := Int.neg_nonpos_of_nonneg (Int.natCast_nonneg _)
  have hfault : evaluate maxDepth 0 [] 0 state = .error (.unwritable maxDepth) state := by
    rw [evaluate_of_reached hneg, if_pos CallStack.size_pos,
      if_neg Text.not_writable_neg_digitBound]
  refine ⟨hneg, ?_, hfault⟩
  intro hrefused
  rw [hfault] at hrefused
  cases hrefused

end Phrasebook
