import Phrasebook.Proofs.Scope.Layers

/-! # Frames that remain

What a later store has kept of an earlier one, and what a scope means in both.

* `Store.Keeps` — all frames are still there, and some of them bind what they bound.
* `Store.find?_child`, `Store.find?_bind`, `Store.find?_bind_of_ne` — what keys mean after each
  operation.
* `Store.Native` — the scopes that evaluations are followed in: their frames exist and bind no
  action of an embedding program.
-/

namespace Phrasebook

variable {Act : Type}

namespace Store

/-! ## Looking keys up after an operation -/

theorem bindings_size (store : Store Act) : store.bindings store.size = [] := by
  simp [bindings, size]

/-- A new frame binds nothing, so a key means what it means in the scope around it. -/
theorem find?_child (store : Store Act) (scope : FrameId) (key : Key) :
    (store.child scope).2.find? store.size key = store.find? scope key := by
  have hnew : (store.child scope).2.bindings store.size = [] := by
    rw [Store.child, bindings_add, bindings_size]
  rw [find?, chain, outer_child_size, List.findSome?_cons, hnew, Bindings.find?_nil]
  simp only [Store.child, bindings_add]
  rfl

/-- What a frame binds a key to, after a key was bound in one of the frames. -/
theorem bindings_find?_bind {store : Store Act} {scope : FrameId} (hs : scope < store.size)
    (key other : Key) (entry : Entry Act) (frame : FrameId) :
    ((store.bind scope key entry).bindings frame).find? other
      = if scope = frame ∧ key = other then some entry
        else (store.bindings frame).find? other := by
  rw [bindings_bind _ _ _ _ _ hs]
  by_cases hframe : scope = frame <;> simp [hframe, Bindings.find?_insert]

/-- Binding a key in the innermost frame of a scope gives that key its meaning, and no other. -/
theorem find?_bind {store : Store Act} {scope : FrameId} (hs : scope < store.size)
    (key other : Key) (entry : Entry Act) :
    (store.bind scope key entry).find? scope other
      = if key = other then some entry else store.find? scope other := by
  simp only [find?, chain, outer_bind, bindings_find?_bind hs]
  by_cases hkey : key = other
  · simp [hkey]
  · simp [hkey]

/-- Binding a key leaves every other key the meaning it has, in all scopes. -/
theorem find?_bind_of_ne {store : Store Act} {scope : FrameId} (hs : scope < store.size)
    {key other : Key} (hne : other ≠ key) (entry : Entry Act) (frame : FrameId) :
    (store.bind scope key entry).find? frame other = store.find? frame other := by
  simp only [find?, chain, outer_bind, bindings_find?_bind hs, hne.symm, and_false, if_false]

/-! ## Keeping frames -/

/-- The frames of `base` are all in the store, each inside the frames it was inside, and those with
    `P` bind what they bound. -/
structure Keeps (base : Store Act) (P : FrameId → Prop) (store : Store Act) : Prop where
  size_le : base.size ≤ store.size
  outer_eq : ∀ frame < base.size, store.outer frame = base.outer frame
  bindings_eq : ∀ frame < base.size, P frame → store.bindings frame = base.bindings frame

/-- All frames bind what they bound. -/
abbrev KeepsAll (base store : Store Act) : Prop := base.Keeps (fun _ => True) store

namespace Keeps

variable {base middle store : Store Act} {P Q : FrameId → Prop}

theorem refl (store : Store Act) (P : FrameId → Prop) : store.Keeps P store :=
  ⟨Nat.le_refl _, fun _ _ => rfl, fun _ _ _ => rfl⟩

theorem trans (h : base.Keeps P middle) (hm : middle.Keeps Q store)
    (hPQ : ∀ frame < base.size, P frame → Q frame) : base.Keeps P store := by
  refine ⟨Nat.le_trans h.size_le hm.size_le, ?_, ?_⟩
  · intro frame hframe
    rw [hm.outer_eq frame (Nat.lt_of_lt_of_le hframe h.size_le), h.outer_eq frame hframe]
  · intro frame hframe hP
    rw [hm.bindings_eq frame (Nat.lt_of_lt_of_le hframe h.size_le) (hPQ frame hframe hP),
      h.bindings_eq frame hframe hP]

theorem mono (h : base.Keeps P store) (hQP : ∀ frame, Q frame → P frame) : base.Keeps Q store :=
  ⟨h.size_le, h.outer_eq, fun frame hframe hQ => h.bindings_eq frame hframe (hQP frame hQ)⟩

theorem child (store : Store Act) (scope : FrameId) : store.KeepsAll (store.child scope).2 := by
  refine ⟨?_, fun frame hframe => outer_add _ _ hframe, fun frame _ _ => bindings_add _ _ _⟩
  rw [size_child]
  exact Nat.le_succ _

/-- Binding a key changes no frame but the one it is bound in. -/
theorem bind {scope : FrameId} (hs : scope < store.size) (key : Key) (entry : Entry Act) :
    store.Keeps (· ≠ scope) (store.bind scope key entry) := by
  refine ⟨Nat.le_of_eq (size_bind _ _ _ _).symm, fun _ _ => outer_bind _ _ _ _ _, ?_⟩
  intro frame _ hne
  rw [bindings_bind _ _ _ _ _ hs, if_neg (Ne.symm hne)]

theorem chain_eq (h : base.Keeps P store) {scope : FrameId} (hs : scope < base.size) :
    store.chain scope = base.chain scope :=
  congrArg (scope :: ·) (h.outer_eq scope hs)

end Keeps

/-! ## Scopes on their own -/

/-- All frames of the scope exist, and none binds an action of the embedding program. -/
structure Native (store : Store Act) (scope : FrameId) : Prop where
  exist : ∀ frame ∈ store.chain scope, frame < store.size
  hostless : ∀ frame ∈ store.chain scope, ∀ key action,
    (store.bindings frame).find? key ≠ some (.action (.host action))

namespace Native

variable {base store : Store Act} {scope : FrameId}

theorem scope_lt (h : store.Native scope) : scope < store.size :=
  h.exist scope List.mem_cons_self

theorem find?_ne (h : store.Native scope) (key : Key) (action : Act) :
    store.find? scope key ≠ some (.action (.host action)) := by
  intro hf
  obtain ⟨frame, hframe, hfound⟩ := List.exists_of_findSome?_eq_some hf
  exact h.hostless frame hframe key action hfound

/-- A scope remains what it is where its frames are kept. -/
theorem of_keepsAll (h : base.Native scope) (hk : base.KeepsAll store) : store.Native scope := by
  have hchain := hk.chain_eq h.scope_lt
  constructor
  · intro frame hframe
    rw [hchain] at hframe
    exact Nat.lt_of_lt_of_le (h.exist frame hframe) hk.size_le
  · intro frame hframe key action
    rw [hchain] at hframe
    rw [hk.bindings_eq frame (h.exist frame hframe) trivial]
    exact h.hostless frame hframe key action

/-- In a scope whose frames are kept all keys mean what they meant. -/
theorem find?_eq (h : base.Native scope) (hk : base.KeepsAll store) (key : Key) :
    store.find? scope key = base.find? scope key := by
  have hframes : ∀ frames : List FrameId, (∀ frame ∈ frames, frame < base.size) →
      (frames.findSome? fun frame => (store.bindings frame).find? key)
        = frames.findSome? fun frame => (base.bindings frame).find? key := by
    intro frames hlt
    induction frames with
    | nil => rfl
    | cons frame frames ih =>
      obtain ⟨hframe, hrest⟩ := List.forall_mem_cons.1 hlt
      rw [List.findSome?_cons, List.findSome?_cons, hk.bindings_eq frame hframe trivial, ih hrest]
  rw [find?, find?, hk.chain_eq h.scope_lt, hframes _ h.exist]

theorem child (h : store.Native scope) : (store.child scope).2.Native store.size := by
  have hchain : (store.child scope).2.chain store.size = store.size :: store.chain scope :=
    congrArg (store.size :: ·) (outer_child_size store scope)
  constructor
  · intro frame hframe
    rw [size_child]
    rw [hchain] at hframe
    obtain rfl | hframe := List.mem_cons.1 hframe
    · exact Nat.lt_succ_self _
    · exact Nat.lt_succ_of_lt (h.exist frame hframe)
  · intro frame hframe key action
    rw [Store.child, bindings_add]
    rw [hchain] at hframe
    obtain rfl | hframe := List.mem_cons.1 hframe
    · rw [bindings_size, Bindings.find?_nil]
      intro hnone
      cases hnone
    · exact h.hostless frame hframe key action

theorem bind (h : store.Native scope) (key : Key) (value : Value) :
    (store.bind scope key (.stored value)).Native scope := by
  have hchain : (store.bind scope key (.stored value)).chain scope = store.chain scope :=
    congrArg (scope :: ·) (outer_bind _ _ _ _ _)
  constructor
  · intro frame hframe
    rw [size_bind]
    exact h.exist frame (hchain ▸ hframe)
  · intro frame hframe other action
    rw [hchain] at hframe
    rw [bindings_bind _ _ _ _ _ h.scope_lt]
    split
    · rw [Bindings.find?_insert]
      split
      · nofun
      · exact h.hostless frame hframe other action
    · exact h.hostless frame hframe other action

end Native

end Store

end Phrasebook
