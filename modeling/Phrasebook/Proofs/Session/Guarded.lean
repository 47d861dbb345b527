import Phrasebook.Proofs.Evaluation.Agreement
import Phrasebook.Proofs.Scope.Layers
import Phrasebook.Proofs.Session.Reports

/-! # The frame of the built-in actions

Scripts leave the frame of the built-in actions alone, and get nothing in front of them that has
gaps.

* `Store.Guarded`, `State.Guarded` — the invariant: of the frames, and of an evaluation in a scope
  with the calls that it has made so far.
* `Comparison.guarded`, `evaluate_guarded` — evaluations keep it.
* `Session.start_guarded` — sessions start with it.
* `TraceEvent.Guarded` — what the trace and the result of a run say of a call.
* `Session.run_guarded`, `Session.runAll_guarded` — scripts keep it.
-/

namespace Phrasebook

open Session (builtinsFrame userFrame)

variable {host : Host}

/-! ## Frames -/

/-- All frames rest on the frame of the built-in actions, and there keys with gaps mean what they
    mean in `base`. If that frame is below the floor, it is `base` altogether. -/
structure Store.Guarded {Act : Type} (base : Bindings Act) (floor : FrameId) (store : Store Act) :
    Prop where
  rests : store.RestsOn builtinsFrame
  hostless : store.Hostless
  userFrame_lt : userFrame < store.size
  gaps : ∀ key, key.arity ≠ 0 → (store.bindings builtinsFrame).find? key = base.find? key
  kept : builtinsFrame < floor → store.bindings builtinsFrame = base

namespace Store.Guarded

variable {Act : Type} {base : Bindings Act} {floor scope : FrameId} {store : Store Act}

theorem child (h : store.Guarded base floor) (hs : scope < store.size) :
    (store.child scope).2.Guarded base floor := by
  have hbindings : (store.child scope).2.bindings builtinsFrame = store.bindings builtinsFrame :=
    bindings_add _ _ _
  refine ⟨h.rests.child hs, h.hostless.child scope, ?_, ?_, ?_⟩
  · rw [size_child]
    exact Nat.lt_succ_of_lt h.userFrame_lt
  · rw [hbindings]
    exact h.gaps
  · rw [hbindings]
    exact h.kept

/-- A name may be bound in every frame that is not below the floor. -/
theorem bind (h : store.Guarded base floor) (hs : scope < store.size) (hfloor : floor ≤ scope)
    {key : Key} (hk : key.arity = 0) (value : Value) :
    (store.bind scope key (.stored value)).Guarded base floor := by
  have hbindings := bindings_bind store scope builtinsFrame key (.stored value) hs
  refine ⟨h.rests.bind_name hs hk value, h.hostless.bind scope key value, ?_, ?_, ?_⟩
  · rw [size_bind]
    exact h.userFrame_lt
  · intro other hother
    rw [← h.gaps other hother, hbindings]
    split
    · rw [Bindings.find?_insert, if_neg]
      rintro rfl
      exact hother hk
    · rfl
  · intro hlt
    have hne : scope ≠ builtinsFrame := fun heq => Nat.not_le.2 hlt (heq ▸ hfloor)
    rw [hbindings, if_neg hne]
    exact h.kept hlt

end Store.Guarded

/-! ## Evaluations -/

/-- An evaluation in a scope, so far: calls with gaps found what `base` binds them to, and if a call
    found nothing, an error with its key is what has been thrown. -/
structure State.Guarded {Act Memory : Type} (base : Bindings Act) (floor : FrameId)
    (thrown : Option Value) (scope : FrameId) (state : State Act Memory) : Prop where
  store : state.store.Guarded base floor
  floor_le : floor ≤ scope
  scope_lt : scope < state.store.size
  calls : ∀ {key args found}, TraceEvent.dispatched key args found ∈ state.trace →
    key.arity ≠ 0 → found = base.find? key
  missed : ∀ {key args}, TraceEvent.dispatched key args none ∈ state.trace →
    missing? key (none : Option (Entry Act)) = thrown

theorem State.Guarded.of_noTrace {Act Memory : Type} {base : Bindings Act} {floor scope : FrameId}
    {state : State Act Memory} (h : state.store.Guarded base floor) (hfloor : floor ≤ scope)
    (hscope : scope < state.store.size) (ht : state.trace = #[]) :
    state.Guarded base floor none scope := by
  have hnone : ∀ event, event ∉ state.trace := by
    intro event
    rw [ht]
    exact Array.not_mem_empty event
  exact ⟨h, hfloor, hscope, fun hmem => absurd hmem (hnone _), fun hmem => absurd hmem (hnone _)⟩

/-- Evaluations compared with themselves, in scopes from the floor on. -/
def Comparison.guarded (host : Host) (base : Bindings host.Act) (floor : FrameId) :
    Comparison host where
  Place := FrameId
  left scope := scope
  right scope := scope
  Holds thrown scope state state' := state = state' ∧ state.Guarded base floor thrown scope
  find_eq := by
    rintro scope state _ key ⟨rfl, h⟩
    rfl
  found_ne := by
    rintro scope state _ key action ⟨rfl, h⟩
    exact h.store.hostless.find? scope key action
  deepen := by
    rintro thrown scope state _ depth ⟨rfl, h⟩
    exact ⟨rfl, h.store, h.floor_le, h.scope_lt, h.calls, h.missed⟩
  record := by
    rintro thrown scope state _ event he ⟨rfl, h⟩
    -- What is recorded is no call.
    have hold : ∀ {key args found},
        TraceEvent.dispatched key args found ∈ (state.record event).trace →
        TraceEvent.dispatched key args found ∈ state.trace := by
      intro key args found hmem
      obtain hmem | rfl := Array.mem_push.1 hmem
      · exact hmem
      · cases he
    exact ⟨rfl, h.store, h.floor_le, h.scope_lt, fun hmem => h.calls (hold hmem),
      fun hmem => h.missed (hold hmem)⟩
  dispatch := by
    rintro scope state _ key args ⟨rfl, h⟩
    refine ⟨rfl, h.store, h.floor_le, h.scope_lt, ?_, ?_⟩
    · intro other args' found hmem hgaps
      obtain hmem | heq := Array.mem_push.1 hmem
      · exact h.calls hmem hgaps
      · cases heq
        rw [h.store.rests.find?_eq h.scope_lt hgaps, h.store.gaps _ hgaps]
    · intro other args' hmem
      obtain hmem | heq := Array.mem_push.1 hmem
      · cases h.missed hmem
      · injection heq with hkey hargs hfound
        rw [hkey, ← hfound]
  throws := by
    rintro scope state _ value ⟨rfl, h⟩
    exact ⟨rfl, h.store, h.floor_le, h.scope_lt, h.calls, fun hmem => by cases h.missed hmem⟩
  emit := by
    rintro scope state _ channel message ⟨rfl, h⟩
    exact ⟨rfl, h.store, h.floor_le, h.scope_lt, h.calls, h.missed⟩
  child := by
    rintro scope state _ ⟨rfl, h⟩
    refine ⟨state.store.size, rfl, rfl, ⟨rfl, ?_⟩, ?_⟩
    · refine ⟨h.store.child h.scope_lt, Nat.le_trans h.floor_le (Nat.le_of_lt h.scope_lt), ?_,
        h.calls, h.missed⟩
      show state.store.size < (state.store.child scope).2.size
      rw [Store.size_child]
      exact Nat.lt_succ_self _
    · rintro thrown after _ ⟨rfl, hafter⟩
      exact ⟨rfl, hafter.store, h.floor_le, Nat.lt_trans h.scope_lt hafter.scope_lt, hafter.calls,
        hafter.missed⟩
  bind := by
    rintro scope state _ key value hkey ⟨rfl, h⟩
    refine ⟨rfl, h.store.bind h.scope_lt h.floor_le hkey value, h.floor_le, ?_, h.calls, h.missed⟩
    show scope < (state.store.bind scope key _).size
    rw [Store.size_bind]
    exact h.scope_lt

section

variable [CallStack]

/-- Evaluations in a scope that is not below the floor keep the invariant, and end in an error for
    the call that found nothing, if there was one. -/
theorem evaluate_guarded {base : Bindings host.Act} {floor scope : FrameId} {state : host.State}
    (h : state.Guarded base floor none scope) (maxDepth : Int) (calls : Nat) (program : Program) :
    match evaluate maxDepth calls program scope state with
    | .ok output after => after.Guarded base floor output.thrown? scope
    | .error _ after => after.Guarded base floor none scope := by
  have hagree : (Comparison.guarded host base floor).Results scope state.depth Output.Agree
      (evaluate maxDepth calls program scope state)
      (evaluate maxDepth calls program scope state) :=
    evaluate_agrees (.guarded host base floor) maxDepth calls calls (.refl program) scope
      state.depth state state ⟨⟨rfl, h⟩, rfl, rfl⟩
  cases hr : evaluate maxDepth calls program scope state with
  | ok output after =>
    rw [hr] at hagree
    obtain ⟨_, ⟨-, rfl⟩, hat⟩ := hagree
    exact hat.holds.2
  | error fault after =>
    rw [hr] at hagree
    exact hagree.2.holds.2

/-! ## Starting -/

theorem Builtin.eq_of_ofPattern {action other : Builtin} {key : Key}
    (h : Key.ofPattern action.pattern = .ok key) (ho : Key.ofPattern other.pattern = .ok key) :
    action = other := by
  have hkeys : action.key = other.key :=
    (Builtin.key_eq_of_ofPattern h).trans (Builtin.key_eq_of_ofPattern ho).symm
  cases action <;> cases other <;> first | rfl | cases hkeys

omit [CallStack] in
theorem Builtin.arity_ne_zero (action : Builtin) : action.arity ≠ 0 := by
  cases action <;> decide

/-- Binding a built-in action under its pattern leaves every other one bound under its own. -/
theorem Bindings.find?_insert_builtin {Act : Type} {first action : Builtin} {firstKey key : Key}
    (hfirst : Key.ofPattern first.pattern = .ok firstKey)
    (hkey : Key.ofPattern action.pattern = .ok key) {bindings : Bindings Act}
    (h : first = action ∨ find? key bindings = some (.action (.builtin action))) :
    find? key (insert firstKey (.action (.builtin first)) bindings)
      = some (.action (.builtin action)) := by
  rw [find?_insert]
  by_cases hsame : firstKey = key
  · -- No other action has the same pattern.
    obtain rfl : first = action := Builtin.eq_of_ofPattern (hsame ▸ hfirst) hkey
    exact if_pos hsame
  · rw [if_neg hsame]
    obtain rfl | hfound := h
    · exact absurd (Except.ok.inj (hfirst.symm.trans hkey)) hsame
    · exact hfound

/-- Binding built-in actions in the frame at the bottom: each is then what its pattern means. -/
theorem bindActions_builtin {Act : Type} {bottom : FrameId} (actions : List Builtin)
    {store after : Store Act} {keys : List Key} (h : store.RestsOn bottom)
    (hb : bottom < store.size)
    (hbind : bindActions store bottom (actions.map fun action => (action.pattern, .builtin action))
      = (after, .ok keys)) :
    after.RestsOn bottom ∧ after.size = store.size
      ∧ ∀ action key, Key.ofPattern action.pattern = .ok key →
        action ∈ actions ∨ (store.bindings bottom).find? key = some (.action (.builtin action)) →
        (after.bindings bottom).find? key = some (.action (.builtin action)) := by
  induction actions generalizing store keys with
  | nil =>
    cases hbind
    refine ⟨h, rfl, ?_⟩
    rintro action key - (hmem | hfound)
    · cases hmem
    · exact hfound
  | cons first actions ih =>
    rw [List.map_cons, bindActions] at hbind
    split at hbind
    · cases hbind
    · next firstKey hfirst =>
      split at hbind
      · next rest keys' hrest =>
        cases hbind
        obtain ⟨hrests, hsize, hfind⟩ := ih (h.bind_bottom hb firstKey _)
          (by rw [Store.size_bind]; exact hb) hrest
        refine ⟨hrests, hsize.trans (Store.size_bind _ _ _ _), ?_⟩
        intro action key hkey hmem
        apply hfind action key hkey
        rw [List.mem_cons] at hmem
        -- No two actions have one key, so what is bound later takes nothing away.
        obtain (rfl | hmem) | hfound := hmem
        · right
          rw [Store.bindings_bind _ _ _ _ _ hb, if_pos rfl]
          exact Bindings.find?_insert_builtin hfirst hkey (.inl rfl)
        · exact .inl hmem
        · right
          rw [Store.bindings_bind _ _ _ _ _ hb, if_pos rfl]
          exact Bindings.find?_insert_builtin hfirst hkey (.inr hfound)
      · cases hbind

namespace Session

omit [CallStack] in
theorem emptyFrames_restsOn : (emptyFrames : Store host.Act).RestsOn builtinsFrame := by
  constructor
  · intro frame hframe
    match frame, hframe with
    | 0, _ => exact List.mem_cons_self
    | 1, _ => exact List.mem_cons_of_mem _ List.mem_cons_self
  · intro frame _ key entry hentry
    have hbindings : (emptyFrames : Store host.Act).bindings frame = [] := by
      show (Store.add _ _).2.bindings frame = []
      rw [Store.bindings_add]
      exact Store.bindings_add Store.empty [] frame
    rw [hbindings] at hentry
    cases hentry

/-- The frames of a session without a prelude. -/
theorem bindActions_guarded {store : Store host.Act} {keys : List Key}
    (h : bindActions emptyFrames builtinsFrame builtinActions = (store, .ok keys)) :
    store.Guarded (store.bindings builtinsFrame) builtinsFrame
      ∧ ∀ action key, Key.ofPattern action.pattern = .ok key →
        (store.bindings builtinsFrame).find? key = some (.action (.builtin action)) := by
  obtain ⟨hrests, hsize, hfind⟩ :=
    bindActions_builtin Builtin.all emptyFrames_restsOn Nat.zero_lt_two h
  have hempty : (emptyFrames : Store host.Act).Sound := (Store.Sound.empty.add []).child 0
  have hsound := bindActions_sound builtinsFrame Builtin.all hempty
  have hstore : (bindActions emptyFrames builtinsFrame builtinActions).1 = store :=
    congrArg Prod.fst h
  refine ⟨⟨hrests, hstore ▸ hsound.hostless, hsize ▸ Nat.one_lt_two, fun _ _ => rfl, nofun⟩, ?_⟩
  intro action key hkey
  exact hfind action key hkey (.inl (by cases action <;> decide))

/-- A prelude binds names in the frame of the built-in actions, which keeps what has gaps. -/
theorem load_guarded {base : Bindings host.Act} {session loaded : Session host} {source : Text}
    (hs : session.state.Guarded base builtinsFrame none builtinsFrame)
    (h : session.load source = .ok loaded) :
    loaded.state.store.Guarded base builtinsFrame := by
  unfold load at h
  split at h
  · cases h
  · cases h
  · next program hp =>
    have hrun := evaluate_guarded hs session.maxDepth 0 program
    split at h
    · cases h
    · next output state hr =>
      rw [hr] at hrun
      split at h
      · cases h
      · cases h
        exact hrun.store

/-- A session starts with frames that rest on that of the built-in actions, where each of them is
    bound under its own pattern. -/
theorem start_guarded {memory : host.Memory} {prelude? : Option Text} {maxDepth : Int}
    {session : Session host} (h : start host memory [] prelude? maxDepth = .ok session) :
    session.state.store.Guarded (session.state.store.bindings builtinsFrame) userFrame
      ∧ ∀ action key, Key.ofPattern action.pattern = .ok key →
        (session.state.store.bindings builtinsFrame).find? key
          = some (.action (.builtin action)) := by
  unfold start at h
  obtain ⟨bound, hbound, h⟩ := except_bind_eq_ok h
  unfold bindHere at hbound
  split at hbound
  · next store keys hb =>
    cases hbound
    obtain ⟨hstore, hfind⟩ := bindActions_guarded hb
    -- The prelude, if there is one, leaves what has gaps as it is.
    have hsession : session.state.store.Guarded (store.bindings builtinsFrame) builtinsFrame := by
      cases prelude? with
      | none =>
        cases h
        exact hstore
      | some source =>
        obtain ⟨loaded, hloaded, h⟩ := except_bind_eq_ok h
        cases h
        refine load_guarded (.of_noTrace hstore (Nat.le_refl _) ?_ rfl) hloaded
        exact Nat.lt_trans Nat.zero_lt_one hstore.userFrame_lt
    refine ⟨⟨hsession.rests, hsession.hostless, hsession.userFrame_lt, fun _ _ => rfl,
      fun _ => rfl⟩, fun action key hkey => ?_⟩
    have hgaps : key.arity ≠ 0 := by
      rw [Builtin.arity_of_ofPattern hkey]
      exact action.arity_ne_zero
    rw [hsession.gaps key hgaps]
    exact hfind action key hkey
  · cases hbound

/-! ## Running -/

/-- The session after scripts have been run in order. -/
def runAll (session : Session host) (scripts : List (Text × Bool)) : Session host :=
  scripts.foldl (fun session script => (session.run script.1 script.2).2) session

end Session

end

/-- A call found what `builtins` binds its key to, if the key has gaps; and if it found nothing, the
    result of the run says so. -/
def TraceEvent.Guarded {Act : Type} (builtins : Bindings Act) (result : Except Fault Report) :
    TraceEvent Act → Prop
  | .dispatched key _ found =>
    (key.arity ≠ 0 → found = builtins.find? key)
      ∧ (found = none → ∃ report, result = .ok report ∧ report.status = .thrown
          ∧ report.output = some (.error ("name not found: ".toList ++ key.print)))
  | .opened _ | .closed | .began _ | .thrownInFiller _ | .thrownBy _ _ => True

/-- After an evaluation, whatever is made of it in a report. -/
theorem State.Guarded.event {Act Memory : Type} {base : Bindings Act} {floor scope : FrameId}
    {thrown : Option Value} {state : State Act Memory} (h : state.Guarded base floor thrown scope)
    {result : Except Fault Report}
    (hresult : ∀ value, thrown = some value →
      ∃ report, result = .ok report ∧ report.status = .thrown
        ∧ report.output = some (.thrown value))
    {event : TraceEvent Act} (he : event ∈ state.trace) : event.Guarded base result := by
  cases event with
  | dispatched key args found =>
    refine ⟨h.calls he, ?_⟩
    rintro rfl
    exact hresult _ (h.missed he).symm
  | _ => trivial

namespace Session

variable [CallStack]

theorem runProgram_guarded {builtins : Bindings host.Act} {session : Session host}
    (h : session.state.Guarded builtins userFrame none userFrame) (program : Program) :
    (session.runProgram program).2.state.store.Guarded builtins userFrame
      ∧ ∀ event ∈ (session.runProgram program).2.state.trace,
        event.Guarded builtins (session.runProgram program).1 := by
  have hrun := evaluate_guarded h session.maxDepth 0 program
  unfold runProgram
  split
  · next output state hr =>
    rw [hr] at hrun
    cases output with
    | thrown value =>
      refine ⟨hrun.store, fun event he => hrun.event ?_ he⟩
      rintro _ ⟨⟩
      exact ⟨_, rfl, rfl, rfl⟩
    | returned value | lastValue value =>
      exact ⟨hrun.store, fun event he => hrun.event nofun he⟩
  · next state hr =>
    rw [hr] at hrun
    exact ⟨hrun.store, fun event he => hrun.event nofun he⟩
  · next fault state hr =>
    rw [hr] at hrun
    exact ⟨hrun.store, fun event he => hrun.event nofun he⟩

theorem run_guarded {builtins : Bindings host.Act} {session : Session host}
    (h : session.state.store.Guarded builtins userFrame) (source : Text) (allowIncomplete : Bool) :
    (session.run source allowIncomplete).2.state.store.Guarded builtins userFrame
      ∧ ∀ event ∈ (session.run source allowIncomplete).2.state.trace,
        event.Guarded builtins (session.run source allowIncomplete).1 := by
  have hcleared : session.state.cleared.Guarded builtins userFrame none userFrame :=
    .of_noTrace h (Nat.le_refl _) h.userFrame_lt rfl
  have hevent : ∀ result, ∀ event ∈ session.state.cleared.trace, event.Guarded builtins result :=
    fun _ _ he => hcleared.event nofun he
  unfold run
  dsimp only
  split
  · exact ⟨h, hevent _⟩
  · split
    · exact ⟨h, hevent _⟩
    · exact ⟨h, hevent _⟩
  · exact ⟨h, hevent _⟩
  · next program hp => exact runProgram_guarded hcleared program

theorem runAll_guarded {builtins : Bindings host.Act} {session : Session host}
    (h : session.state.store.Guarded builtins userFrame) (scripts : List (Text × Bool)) :
    (session.runAll scripts).state.store.Guarded builtins userFrame := by
  induction scripts generalizing session with
  | nil => exact h
  | cons script scripts ih => exact ih (run_guarded h script.1 script.2).1

theorem runAll_maxDepth (session : Session host) (scripts : List (Text × Bool)) :
    (session.runAll scripts).maxDepth = session.maxDepth := by
  induction scripts generalizing session with
  | nil => rfl
  | cons script scripts ih =>
    exact (ih (session.run script.1 script.2).2).trans (session.run_maxDepth script.1 script.2)

theorem Reached.runAll {session : Session host} (h : session.Reached)
    (scripts : List (Text × Bool)) : (session.runAll scripts).Reached := by
  induction scripts generalizing session with
  | nil => exact h
  | cons script scripts ih => exact ih (.run script.1 script.2 h)

end Session

end Phrasebook
