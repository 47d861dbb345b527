import Phrasebook.Proofs.Scope.History

/-! # Lookup by history

What a key means in a scope is what was registered under it last in the nearest frame in which it
was ever registered.

* `Store.FollowsHistory.owner?_eq_some_iff`, `Store.FollowsHistory.owner?_eq_none_iff` — the frame
  that a key is found in.
* `Store.History.Nearest.of_register` — what one registration changes about that.
* `Store.lookup_by_history` — what keys mean, frame by frame, and whom a registration concerns.
-/

namespace Phrasebook

variable {Act : Type}

namespace Store

/-- What a key means is what it is bound to in the frame that it is found in. -/
theorem find?_eq_bind (store : Store Act) (scope : FrameId) (key : Key) :
    store.find? scope key
      = (store.owner? scope key).bind fun owner => (store.bindings owner).find? key := by
  rw [find?, owner?]
  induction store.chain scope with
  | nil => rfl
  | cons frame frames ih =>
    rw [List.findSome?_cons, List.find?_cons]
    cases h : (store.bindings frame).find? key with
    | none => exact ih
    | some entry => exact h.symm

theorem find?_eq_none_iff (store : Store Act) (scope : FrameId) (key : Key) :
    store.find? scope key = none ↔ store.owner? scope key = none := by
  rw [find?_eq_bind]
  cases ho : store.owner? scope key with
  | none => simp
  | some owner =>
    -- A frame that a key is found in binds it.
    rw [owner?] at ho
    have hbound := List.find?_some ho
    rw [Option.bind_some]
    cases hf : (store.bindings owner).find? key with
    | none => simp [hf] at hbound
    | some entry => simp

/-! ## The frame that a key is found in -/

namespace FollowsHistory

variable {store : Store Act} {history : History Act} {scope parent : FrameId} {key : Key}

/-- Induction along the frames around a frame, from the outside in. -/
theorem frames_induction (h : store.FollowsHistory history) {motive : FrameId → Prop}
    (outermost : ∀ frame, history.parent? frame = none → motive frame)
    (inside : ∀ frame parent, history.parent? frame = some parent → motive parent → motive frame)
    (frame : FrameId) : motive frame := by
  induction frame using Nat.strongRecOn with
  | ind frame ih =>
    cases hp : history.parent? frame with
    | none => exact outermost frame hp
    | some parent => exact inside frame parent hp (ih parent (h.parent_lt frame parent hp))

theorem owner?_of_registers (h : store.FollowsHistory history) (hr : history.Registers scope key) :
    store.owner? scope key = some scope := by
  have hbound : ((store.bindings scope).find? key).isSome = true := by
    rw [h.find?_eq, History.latest?_isSome_iff]
    exact hr
  rw [owner?, chain, List.find?_cons, hbound]

/-- A key that was never registered in the frame is looked up in the frames around it. -/
theorem owner?_of_not_registers (h : store.FollowsHistory history)
    (hr : ¬ history.Registers scope key) :
    store.owner? scope key
      = (history.parent? scope).bind fun parent => store.owner? parent key := by
  have hbound : ((store.bindings scope).find? key).isSome = false := by
    rw [h.find?_eq, Bool.eq_false_iff]
    exact mt History.latest?_isSome_iff.1 hr
  rw [owner?, chain, List.find?_cons, hbound, h.outer_eq]
  cases history.parent? scope <;> rfl

theorem owner?_eq_some_iff (h : store.FollowsHistory history) (scope : FrameId) {owner : FrameId} :
    store.owner? scope key = some owner ↔ history.Nearest key scope owner := by
  constructor
  · intro ho
    induction scope using h.frames_induction with
    | outermost frame hp =>
      by_cases hr : history.Registers frame key
      · rw [h.owner?_of_registers hr] at ho
        cases ho
        exact .here hr
      · rw [h.owner?_of_not_registers hr, hp] at ho
        cases ho
    | inside frame parent hp ih =>
      by_cases hr : history.Registers frame key
      · rw [h.owner?_of_registers hr] at ho
        cases ho
        exact .here hr
      · rw [h.owner?_of_not_registers hr, hp] at ho
        exact .around hr hp (ih ho)
  · intro hn
    induction hn with
    | here hr => exact h.owner?_of_registers hr
    | around hr hp _ ih =>
      rw [h.owner?_of_not_registers hr, hp]
      exact ih

theorem owner?_eq_none_iff (h : store.FollowsHistory history) (scope : FrameId) :
    store.owner? scope key = none
      ↔ ∀ outer, history.Within scope outer → ¬ history.Registers outer key := by
  constructor
  · intro ho outer hw
    induction hw with
    | refl frame =>
      intro hr
      rw [h.owner?_of_registers hr] at ho
      cases ho
    | @step frame parent outer hp _ ih =>
      by_cases hr : history.Registers frame key
      · rw [h.owner?_of_registers hr] at ho
        cases ho
      · rw [h.owner?_of_not_registers hr, hp] at ho
        exact ih ho
  · intro hnone
    induction scope using h.frames_induction with
    | outermost frame hp => rw [h.owner?_of_not_registers (hnone frame (.refl frame)), hp]; rfl
    | inside frame parent hp ih =>
      rw [h.owner?_of_not_registers (hnone frame (.refl frame)), hp]
      exact ih fun outer hw => hnone outer (.step hp hw)

theorem find?_of_nearest (h : store.FollowsHistory history) {owner : FrameId}
    (hn : history.Nearest key scope owner) :
    store.find? scope key = history.latest? owner key := by
  rw [find?_eq_bind, (h.owner?_eq_some_iff scope).2 hn, ← h.find?_eq]
  rfl

theorem find?_eq_some_iff (h : store.FollowsHistory history) {entry : Entry Act} :
    store.find? scope key = some entry
      ↔ ∃ owner, history.Nearest key scope owner ∧ history.latest? owner key = some entry := by
  constructor
  · intro hf
    have hbind := find?_eq_bind store scope key
    rw [hf] at hbind
    obtain ⟨owner, ho, -⟩ := Option.bind_eq_some_iff.1 hbind.symm
    have hn := (h.owner?_eq_some_iff scope).1 ho
    exact ⟨owner, hn, (h.find?_of_nearest hn).symm.trans hf⟩
  · rintro ⟨owner, hn, hl⟩
    exact (h.find?_of_nearest hn).trans hl

end FollowsHistory

/-! ## What a registration changes -/

namespace History

variable {history : History Act} {frame scope other owner : FrameId} {key : Key}
  {spelling : List KeyPart} {entry : Entry Act}

theorem Registers.register (h : history.Registers other key) (he : entry.isProper = true) :
    Registers (history ++ [.register frame spelling entry]) other key := by
  obtain ⟨found, hmem⟩ := h
  refine ⟨found, ?_⟩
  by_cases hother : other = frame
  · subst hother
    rw [log_register he]
    exact List.mem_append_left _ hmem
  · rwa [log_register_of_ne hother]

theorem Registers.of_register (hother : other ≠ frame)
    (h : Registers (history ++ [.register frame spelling entry]) other key) :
    history.Registers other key := by
  rwa [Registers, log_register_of_ne hother] at h

theorem Within.register (h : history.Within scope other) (frame : FrameId)
    (spelling : List KeyPart) (entry : Entry Act) :
    Within (history ++ [.register frame spelling entry]) scope other := by
  induction h with
  | refl scope => exact .refl scope
  | step hp _ ih => exact .step (by rwa [parent?_register]) ih

/-- A key that is not found in the frame of the registration is found where it was found before. -/
theorem Nearest.of_register (he : entry.isProper = true)
    (h : Nearest (history ++ [.register frame spelling entry]) key scope owner)
    (howner : owner ≠ frame) : history.Nearest key scope owner := by
  induction h with
  | here hr => exact .here (hr.of_register howner)
  | around hr hp _ ih =>
    exact .around (fun hold => hr (hold.register he)) (by rwa [parent?_register] at hp)
      (ih howner)

theorem Valid.register (h : history.Valid) (hframe : frame < history.frames.length)
    (spelling : List KeyPart) (entry : Entry Act) :
    Valid (history ++ [.register frame spelling entry]) :=
  .concat h (by simpa [Operation.subject?] using hframe)

theorem run_register (he : entry.isProper = true) :
    run (history ++ [.register frame spelling entry])
      = history.run.bind frame (.ofParts spelling) entry := by
  rw [run_concat]
  cases entry with
  | stored value => rfl
  | action act => rfl
  | foreign shown kind => cases he

theorem find?_register (h : history.Valid) (hframe : frame < history.frames.length)
    (he : entry.isProper = true)
    (hn : Nearest (history ++ [.register frame spelling entry]) (.ofParts spelling) scope frame) :
    (run (history ++ [.register frame spelling entry])).find? scope (.ofParts spelling)
      = some entry := by
  have hafter := (h.register hframe spelling entry).followsHistory
  rw [hafter.find?_of_nearest hn, latest?_of_log_concat (log_register he), if_pos rfl]

/-- A registration changes nothing for other keys, and nothing where another frame is nearer. -/
theorem find?_register_of_not_nearest (h : history.Valid) (hframe : frame < history.frames.length)
    (he : entry.isProper = true)
    (hn : ¬ (key = .ofParts spelling
      ∧ Nearest (history ++ [.register frame spelling entry]) key scope frame)) :
    (run (history ++ [.register frame spelling entry])).find? scope key
      = history.run.find? scope key := by
  have hbefore := h.followsHistory
  have hafter := (h.register hframe spelling entry).followsHistory
  by_cases hkey : key = .ofParts spelling
  · cases ho : (run (history ++ [.register frame spelling entry])).owner? scope key with
    | none =>
      have hnone := (hafter.owner?_eq_none_iff scope).1 ho
      have hold : history.run.owner? scope key = none :=
        (hbefore.owner?_eq_none_iff scope).2 fun outer hw hr =>
          hnone outer (hw.register frame spelling entry) (hr.register he)
      rw [(find?_eq_none_iff _ _ _).2 ho, (find?_eq_none_iff _ _ _).2 hold]
    | some owner =>
      have hnearest := (hafter.owner?_eq_some_iff scope).1 ho
      have howner : owner ≠ frame := fun heq => hn ⟨hkey, heq ▸ hnearest⟩
      rw [hafter.find?_of_nearest hnearest,
        hbefore.find?_of_nearest (hnearest.of_register he howner), latest?, latest?,
        log_register_of_ne howner]
  · rw [run_register he, find?_bind_of_ne (hbefore.size_eq ▸ hframe) hkey]

end History

/-- Whatever is done to frames, what they bind is a matter of what was registered. A key means in a
    scope what was registered under it last in the nearest frame, of the scope and those around it,
    in which it was ever registered, and nothing if there is no such frame. The keys of a frame
    stand in the order in which they were registered for the first time. A registration gives its
    key a meaning wherever no nearer frame has registered it, and changes nothing else; one that is
    refused changes nothing at all. -/
theorem lookup_by_history {history : History Act} (h : history.Valid) :
    (∀ scope key owner,
      history.run.owner? scope key = some owner ↔ history.Nearest key scope owner)
    ∧ (∀ scope key entry, history.run.find? scope key = some entry
      ↔ ∃ owner, history.Nearest key scope owner ∧ history.latest? owner key = some entry)
    ∧ (∀ scope key, history.run.find? scope key = none
      ↔ ∀ outer, history.Within scope outer → ¬ history.Registers outer key)
    ∧ (∀ scope key, history.run.contains scope key = true
      ↔ ∃ outer, history.Within scope outer ∧ history.Registers outer key)
    ∧ (∀ frame, history.run.keys frame = history.keys frame)
    ∧ (∀ frame spelling entry, frame < history.frames.length → entry.isProper = true →
        let later : History Act := history ++ [.register frame spelling entry]
        ∀ scope key,
          (key = .ofParts spelling ∧ later.Nearest key scope frame →
            later.run.find? scope key = some entry)
          ∧ (¬ (key = .ofParts spelling ∧ later.Nearest key scope frame) →
            later.run.find? scope key = history.run.find? scope key))
    ∧ ∀ frame spelling shown kind,
        let refused : Operation Act := .register frame spelling (.foreign shown kind)
        refused.perform history.run = .error ⟨kind⟩
          ∧ History.run (history ++ [refused]) = history.run := by
  have hf := h.followsHistory
  have hnone : ∀ scope key, history.run.find? scope key = none
      ↔ ∀ outer, history.Within scope outer → ¬ history.Registers outer key :=
    fun scope key => (find?_eq_none_iff _ _ _).trans (hf.owner?_eq_none_iff scope)
  refine ⟨fun scope key owner => hf.owner?_eq_some_iff scope,
    fun scope key entry => hf.find?_eq_some_iff, hnone, ?_, hf.keys_eq, ?_, ?_⟩
  · intro scope key
    rw [contains, Option.isSome_iff_ne_none, ne_eq, hf.owner?_eq_none_iff scope]
    simp
  · intro frame spelling entry hframe he later scope key
    refine ⟨?_, History.find?_register_of_not_nearest h hframe he⟩
    rintro ⟨rfl, hn⟩
    exact History.find?_register h hframe he hn
  · intro frame spelling shown kind refused
    exact ⟨rfl, History.run_concat history refused⟩

/-- Three frames inside each other. The key is registered twice in the outermost one, with capitals
    the first time, and in between in the middle one, where it stays what it is; in the innermost
    one it is refused first and then registered. -/
theorem lookup_by_history_of_capitals :
    let far : Entry Unit := .stored (.string ['f'])
    let middle : Entry Unit := .stored .nothing
    let near : Entry Unit := .action (.builtin .print)
    let history : History Unit :=
      [.root, .child 0, .child 1, .register 0 [.word ['X']] near, .register 0 [.gap] far,
        .register 1 [.word ['x']] middle, .register 0 [.word ['x']] far,
        .register 2 [.word ['x']] (.foreign ['4', '2'] ['i'])]
    let later : History Unit := history ++ [.register 2 [.word ['X']] near]
    history.Valid
      ∧ history.run.find? 2 (.ofWord ['x']) = some middle
      ∧ history.run.find? 0 (.ofWord ['x']) = some far
      ∧ history.run.keys 0 = [.ofWord ['x'], .ofParts [.gap]]
      ∧ later.run.find? 2 (.ofWord ['x']) = some near
      ∧ later.run.find? 1 (.ofWord ['x']) = history.run.find? 1 (.ofWord ['x']) := by
  intro far middle near history later
  have hvalid : history.Valid := by
    have hframes : History.Valid ([] ++ [.root] ++ [.child 0] ++ [.child 1] : History Unit) :=
      .concat (.concat (.concat .nil nofun) (by decide)) (by decide)
    have hfirst : History.Valid (_ ++ [.register 0 [.word ['X']] near]) :=
      hframes.register (by decide) _ _
    have hgap : History.Valid (_ ++ [.register 0 [.gap] far]) := hfirst.register (by decide) _ _
    have hinner : History.Valid (_ ++ [.register 1 [.word ['x']] middle]) :=
      hgap.register (by decide) _ _
    have hagain : History.Valid (_ ++ [.register 0 [.word ['x']] far]) :=
      hinner.register (by decide) _ _
    exact hagain.register (by decide) _ _
  obtain ⟨-, hfind, -, -, hkeys, hlater, -⟩ := lookup_by_history hvalid
  -- What is in the logs is computed; which frame is nearest is read off them.
  have hnone : ¬ history.Registers 2 (.ofWord ['x']) := by
    rw [← History.latest?_isSome_iff]
    decide +kernel
  have hmiddle : history.Registers 1 (.ofWord ['x']) := by
    rw [← History.latest?_isSome_iff]
    decide +kernel
  have hfar : history.Registers 0 (.ofWord ['x']) := by
    rw [← History.latest?_isSome_iff]
    decide +kernel
  have hnear : later.Registers 2 (.ofWord ['x']) := by
    rw [← History.latest?_isSome_iff]
    decide +kernel
  have hchange := hlater 2 [.word ['X']] near (by decide) rfl
  have hkey : Key.ofWord ['x'] = .ofParts [.word ['X']] := by decide +kernel
  refine ⟨hvalid, (hfind _ _ _).2 ⟨1, .around hnone rfl (.here hmiddle), by decide +kernel⟩,
    (hfind _ _ _).2 ⟨0, .here hfar, by decide +kernel⟩, ?_, (hchange 2 _).1 ⟨hkey, .here hnear⟩,
    (hchange 1 _).2 ?_⟩
  · rw [hkeys]
    decide +kernel
  · -- The middle frame has registered the key itself.
    rintro ⟨-, hn⟩
    cases hn with
    | around hr _ _ => exact hr (hmiddle.register rfl)

end Store

end Phrasebook
