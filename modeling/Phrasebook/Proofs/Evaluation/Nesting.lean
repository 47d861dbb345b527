import Mathlib.Algebra.Ring.Int.Defs
import Phrasebook.Proofs.Evaluation.Exchange

/-! # The programs that are open

A program is open from the moment it has passed the check of the depth until it has come to an end
of some kind. The trace tells of both, so at every moment one can count the programs that are open.

* `TraceEvent.openAfter` — how many programs some events have opened and not closed.
* `TraceEvent.Nest` — at every moment of some events, some programs are open, and not too many.
* `State.Nests` — what has become of a state while programs were evaluated from another one on.
* `evaluate_nests` — an evaluation has no more programs open at once than levels are left to it.
-/

namespace Phrasebook

variable {Act Memory : Type}

/-! ## Events -/

namespace TraceEvent

/-- The number of programs that the events have opened and not closed. -/
def openAfter (events : List (TraceEvent Act)) : Int := (events.map opening).sum

@[simp] theorem openAfter_append (events others : List (TraceEvent Act)) :
    openAfter (events ++ others) = openAfter events + openAfter others := by
  simp [openAfter]

@[simp] theorem openAfter_singleton (event : TraceEvent Act) :
    openAfter [event] = event.opening := by
  simp [openAfter]

/-- At no moment of the events more programs are closed than opened, or more than `levels` open. -/
def Nest (levels : Int) (events : List (TraceEvent Act)) : Prop :=
  ∀ beginning, beginning <+: events → 0 ≤ openAfter beginning ∧ openAfter beginning ≤ levels

namespace Nest

variable {levels inner : Int} {events others : List (TraceEvent Act)}

theorem nil (h : 0 ≤ levels) : Nest levels ([] : List (TraceEvent Act)) := by
  intro beginning hprefix
  rw [List.prefix_nil.1 hprefix]
  exact ⟨Int.le_refl 0, h⟩

/-- The programs that are open after the events are so throughout the others. -/
theorem append (h : Nest levels events) (ho : Nest inner others)
    (hle : openAfter events + inner ≤ levels) : Nest levels (events ++ others) := by
  intro beginning hprefix
  have hopen := h events (List.prefix_refl _)
  obtain hshort | ⟨rest, rfl⟩ :=
    List.prefix_or_prefix_of_prefix hprefix (List.prefix_append events others)
  · exact h beginning hshort
  · have hrest := ho rest ((List.prefix_append_right_inj events).1 hprefix)
    rw [openAfter_append]
    omega

theorem concat (h : Nest levels events) {event : TraceEvent Act}
    (hlow : 0 ≤ openAfter events + event.opening)
    (hhigh : openAfter events + event.opening ≤ levels) : Nest levels (events ++ [event]) := by
  intro beginning hprefix
  obtain rfl | hshort := List.prefix_concat_iff.1 hprefix
  · rw [openAfter_append, openAfter_singleton]
    exact ⟨hlow, hhigh⟩
  · exact h beginning hshort

end Nest

end TraceEvent

/-! ## States -/

open TraceEvent

/-- Since the state `before` the depth has come to be `depth`. At the end as many more programs are
    open as the depth has been raised by, and at no moment more than `levels`. -/
structure State.Nests (levels : Int) (before : State Act Memory) (depth : Nat)
    (state : State Act Memory) : Prop where
  depth_eq : state.depth = depth
  trace_eq : ∃ events, state.trace.toList = before.trace.toList ++ events ∧
    before.depth + openAfter events = depth ∧ Nest levels events

namespace State.Nests

variable {levels inner : Int} {before state : State Act Memory} {depth : Nat}

theorem refl (h : 0 ≤ levels) (state : State Act Memory) :
    state.Nests levels state.depth state :=
  ⟨rfl, [], (List.append_nil _).symm, Int.add_zero _, .nil h⟩

/-- What happened from a state on happened from before it on. -/
theorem trans {after : State Act Memory} (h : before.Nests levels depth state)
    (ha : state.Nests inner depth after) (hle : depth + inner ≤ before.depth + levels) :
    before.Nests levels depth after := by
  obtain ⟨hdepth, events, htrace, hopen, hnest⟩ := h
  obtain ⟨hdepth', others, htrace', hopen', hnest'⟩ := ha
  refine ⟨hdepth', events ++ others, ?_, ?_, hnest.append hnest' (by omega)⟩
  · rw [htrace', htrace, List.append_assoc]
  · rw [openAfter_append]
    omega

/-- One more event, with which the depth changes as it tells. -/
theorem step {other : State Act Memory} {event : TraceEvent Act} {depth' : Nat}
    (h : before.Nests levels depth state) (hother : other.depth = depth')
    (htrace : other.trace = state.trace.push event) (hdepth : depth + event.opening = depth')
    (hlow : before.depth ≤ depth') (hhigh : depth' ≤ before.depth + levels) :
    before.Nests levels depth' other := by
  obtain ⟨-, events, hevents, hopen, hnest⟩ := h
  refine ⟨hother, events ++ [event], ?_, ?_, hnest.concat (by omega) (by omega)⟩
  · rw [htrace, Array.toList_push, hevents, List.append_assoc]
  · rw [openAfter_append, openAfter_singleton]
    omega

/-- The depth and the trace are all that counts. -/
theorem of_same {other : State Act Memory} (h : before.Nests levels depth state)
    (hdepth : other.depth = state.depth) (htrace : other.trace = state.trace) :
    before.Nests levels depth other :=
  ⟨hdepth.trans h.depth_eq, htrace ▸ h.trace_eq⟩

theorem enter (h : before.Nests levels depth state) (hlow : before.depth ≤ depth)
    (hhigh : depth + 1 ≤ before.depth + levels) : before.Nests levels (depth + 1) state.enter :=
  h.step (congrArg (· + 1) h.depth_eq) rfl rfl (Nat.le_succ_of_le hlow) (by omega)

theorem leave (h : before.Nests levels (depth + 1) state) (hlow : before.depth ≤ depth)
    (hhigh : depth ≤ before.depth + levels) : before.Nests levels depth state.leave :=
  h.step (congrArg (· - 1) h.depth_eq) rfl (Int.add_neg_cancel_right depth 1) hlow hhigh

end State.Nests

/-! ## Evaluations -/

/-- However the computation ends, the depth is the same as at its beginning, all programs that it
    opened are closed, and of these no more were open at once than levels were left. -/
def Eval.Nests {α : Type} (limit : Int) (m : Eval Act Memory α) : Prop :=
  ∀ before : State Act Memory,
    before.Nests (room limit before.depth) before.depth (Eval.reached (m before))

/-- In particular the depth is kept. -/
theorem Eval.Nests.ensures_depth {α : Type} {limit : Int} {m : Eval Act Memory α}
    (h : m.Nests limit) (depth : Nat) :
    Eval.Ensures (·.depth = depth) (fun _ => True) m fun _ => True :=
  .of_reached fun state hs => (h state).depth_eq.trans hs

variable {host : Host} {limit : Int} {before : host.State} {levels : Int} {depth : Nat}

/-- The actions of the embedding program keep to the levels that are left, as they do if they leave
    the depth and the trace alone and run programs by evaluating them under the same limit. -/
def Host.Nests (host : Host) (limit : Int) : Prop :=
  ∀ action scope? args, (host.perform action scope? args).Nests limit

/-- Where there are no actions but the built-in ones nothing is asked. -/
theorem Host.alone_nests (limit : Int) : Host.alone.Nests limit := fun action => action.elim

/-- The steps of a program that is open. -/
theorem Host.Nests.keeps (hhost : host.Nests limit) (hlow : before.depth ≤ depth)
    (hdepth : depth ≤ limit) (hlimit : limit ≤ before.depth + levels) :
    host.Keeps (before.Nests levels depth) where
  record he hs :=
    hs.step hs.depth_eq rfl (by rw [he, Int.add_zero]) hlow (Int.le_trans hdepth hlimit)
  emit _ _ hs := hs.of_same rfl rfl
  store _ hs := hs.of_same rfl rfl
  perform action scope? args := .of_reached fun state hs => by
    have hrun := hhost action scope? args state
    rw [hs.depth_eq] at hrun
    refine hs.trans hrun ?_
    simp only [room]
    omega

theorem Host.Nests.keeps_depth (hhost : host.Nests limit) (depth : Nat) :
    host.Keeps (·.depth = depth) where
  record _ hs := hs
  emit _ _ hs := hs
  store _ hs := hs
  perform action scope? args := (hhost action scope? args).ensures_depth depth

variable [CallStack]

/-- By induction on the levels that are left: the program that is opened takes one of them. -/
theorem evaluateWithin_nests (hhost : host.Nests limit) (hlimit : limit ≤ before.depth + levels) :
    ∀ (room depth : Nat), before.depth ≤ depth → (0 < room → (depth + room : Int) ≤ limit) →
    ∀ calls program scope, Eval.Ensures (before.Nests levels depth) (fun _ => True)
      (evaluateWithin limit room calls program scope : host.Eval Output) fun _ => True
  | 0, _, _, _, calls, _, _ => .onStack trivial calls (.refuse (fun _ => trivial) trivial)
  | room + 1, depth, hlow, hroom, calls, program, scope => by
    -- With no level left nothing is opened, and then the depth may be anything.
    have hlevels := hroom (Nat.succ_pos room)
    have hlow' : before.depth ≤ depth + 1 := Nat.le_succ_of_le hlow
    have hinner := evaluateWithin_nests hhost hlimit room (depth + 1) hlow' fun _ => by omega
    have hkeeps : host.Keeps (before.Nests levels (depth + 1)) :=
      hhost.keeps hlow' (by omega) hlimit
    have hrun : Eval.Ensures (before.Nests levels (depth + 1)) (fun _ => True)
        (runCommands ⟨calls, evaluateWithin limit room⟩ scope program .nothing) fun _ => True :=
      hkeeps.compositional.runCommands hinner scope program .nothing
    refine .onStack trivial calls (hrun.nest (fun _ hs => hs.enter hlow ?_) fun _ hs => ?_)
    · omega
    · exact hs.leave hlow (by omega)

/-- However the evaluation of a program ends, all programs that were opened are closed again, and no
    more of them were open at once than levels were left below the limit. -/
theorem evaluate_nests (hhost : host.Nests limit) (calls : Nat) (program : Program)
    (scope : FrameId) : (evaluate limit calls program scope : host.Eval Output).Nests limit := by
  intro before
  have hrun : Eval.Ensures (before.Nests (room limit before.depth) before.depth) (fun _ => True)
      (evaluate limit calls program scope : host.Eval Output) fun _ => True := by
    refine .get_bind fun state hs => ?_
    rw [hs.depth_eq]
    refine evaluateWithin_nests hhost ?_ _ _ (Nat.le_refl _) (fun hpos => ?_) calls program scope
    all_goals
      simp only [room] at *
      omega
  exact hrun.reached (.refl (Int.natCast_nonneg _) before)

end Phrasebook
