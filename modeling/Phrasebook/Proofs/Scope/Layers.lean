import Phrasebook.Proofs.Scope.Soundness

/-! # Frames on top of one frame

All frames stand on one, and those above it bind nothing but stored values under names without
gaps. What has gaps is then found in the frame at the bottom, or not at all.

* `Store.RestsOn` — the invariant.
* `Store.RestsOn.find?_eq` — looking a key with gaps up.
* `Store.RestsOn.child`, `Store.RestsOn.bind_name`, `Store.RestsOn.bind_bottom` — what keeps it.
-/

namespace Phrasebook

variable {Act : Type}

theorem Bindings.mem_of_find? {key : Key} {entry : Entry Act} {bindings : Bindings Act}
    (h : find? key bindings = some entry) : (key, entry) ∈ bindings := by
  induction bindings with
  | nil => cases h
  | cons binding rest ih =>
    obtain ⟨k, old⟩ := binding
    rw [find?] at h
    split at h
    · next hk =>
      cases h
      exact hk ▸ List.mem_cons_self
    · exact List.mem_cons_of_mem _ (ih h)

theorem Bindings.mem_insert {key other : Key} {entry found : Entry Act} {bindings : Bindings Act}
    (h : (other, found) ∈ insert key entry bindings) :
    (other = key ∧ found = entry) ∨ (other, found) ∈ bindings := by
  induction bindings with
  | nil =>
    obtain ⟨rfl, rfl⟩ := Prod.mk.inj (List.mem_singleton.1 h)
    exact .inl ⟨rfl, rfl⟩
  | cons binding rest ih =>
    obtain ⟨k, old⟩ := binding
    rw [insert] at h
    split at h
    · next hk =>
      obtain heq | hrest := List.mem_cons.1 h
      · obtain ⟨rfl, rfl⟩ := Prod.mk.inj heq
        exact .inl ⟨hk, rfl⟩
      · exact .inr (List.mem_cons_of_mem _ hrest)
    · obtain heq | hrest := List.mem_cons.1 h
      · exact .inr (heq ▸ List.mem_cons_self)
      · exact (ih hrest).imp_right (List.mem_cons_of_mem _)

namespace Store

theorem size_child (store : Store Act) (scope : FrameId) :
    (store.child scope).2.size = store.size + 1 :=
  Array.size_push _

theorem size_bind (store : Store Act) (frame : FrameId) (key : Key) (entry : Entry Act) :
    (store.bind frame key entry).size = store.size :=
  Array.size_modify

theorem outer_child_size (store : Store Act) (scope : FrameId) :
    (store.child scope).2.outer store.size = store.chain scope := by
  simp [outer, Store.child, add, size]

/-- Every frame has the frame at the bottom around it, or is that frame. Those above it bind
    stored values under names without gaps. -/
structure RestsOn (bottom : FrameId) (store : Store Act) : Prop where
  bottom_mem : ∀ frame < store.size, bottom ∈ store.chain frame
  names : ∀ frame, frame ≠ bottom → ∀ key entry, (key, entry) ∈ store.bindings frame →
    key.arity = 0 ∧ ∃ value, entry = .stored value

namespace RestsOn

variable {bottom : FrameId} {store : Store Act}

/-- A key with gaps means in every scope what the frame at the bottom binds it to. -/
theorem find?_eq (h : store.RestsOn bottom) {scope : FrameId} (hs : scope < store.size) {key : Key}
    (hk : key.arity ≠ 0) : store.find? scope key = (store.bindings bottom).find? key := by
  have habove : ∀ frame, frame ≠ bottom → (store.bindings frame).find? key = none := by
    intro frame hframe
    cases hf : (store.bindings frame).find? key with
    | none => rfl
    | some entry => exact absurd (h.names frame hframe key entry (Bindings.mem_of_find? hf)).1 hk
  cases hb : (store.bindings bottom).find? key with
  | none =>
    refine List.findSome?_eq_none_iff.2 fun frame _ => ?_
    by_cases hframe : frame = bottom
    · rw [hframe, hb]
    · exact habove frame hframe
  | some entry =>
    -- The frames before the one at the bottom are passed over.
    have hchain : ∀ frames : List FrameId, bottom ∈ frames →
        (frames.findSome? fun frame => (store.bindings frame).find? key) = some entry := by
      intro frames hmem
      induction frames with
      | nil => cases hmem
      | cons frame frames ih =>
        rw [List.findSome?_cons]
        by_cases hframe : frame = bottom
        · rw [hframe, hb]
        · rw [habove frame hframe]
          exact ih ((List.mem_cons.1 hmem).resolve_left (Ne.symm hframe))
    exact hchain _ (h.bottom_mem scope hs)

theorem child (h : store.RestsOn bottom) {scope : FrameId} (hs : scope < store.size) :
    (store.child scope).2.RestsOn bottom := by
  constructor
  · intro frame hframe
    rw [size_child] at hframe
    by_cases hnew : frame = store.size
    · subst hnew
      rw [chain, outer_child_size]
      exact List.mem_cons_of_mem _ (h.bottom_mem scope hs)
    · have hold : frame < store.size := by omega
      rw [chain, Store.child, outer_add _ _ hold]
      exact h.bottom_mem frame hold
  · intro frame hframe key entry hentry
    rw [Store.child, bindings_add] at hentry
    exact h.names frame hframe key entry hentry

/-- Binding anything in the frame at the bottom keeps what is above it. -/
theorem bind_bottom (h : store.RestsOn bottom) (hb : bottom < store.size) (key : Key)
    (entry : Entry Act) : (store.bind bottom key entry).RestsOn bottom := by
  constructor
  · intro frame hframe
    rw [size_bind] at hframe
    rw [chain, outer_bind]
    exact h.bottom_mem frame hframe
  · intro frame hframe other found hfound
    rw [bindings_bind _ _ _ _ _ hb, if_neg (Ne.symm hframe)] at hfound
    exact h.names frame hframe other found hfound

theorem bind_name (h : store.RestsOn bottom) {frame : FrameId} (hf : frame < store.size)
    {key : Key} (hk : key.arity = 0) (value : Value) :
    (store.bind frame key (.stored value)).RestsOn bottom := by
  constructor
  · intro other hother
    rw [size_bind] at hother
    rw [chain, outer_bind]
    exact h.bottom_mem other hother
  · intro other hother k found hfound
    rw [bindings_bind _ _ _ _ _ hf] at hfound
    split at hfound
    · obtain ⟨rfl, rfl⟩ | hold := Bindings.mem_insert hfound
      · exact ⟨hk, value, rfl⟩
      · exact h.names other hother k found hold
    · exact h.names other hother k found hfound

end RestsOn

end Store

end Phrasebook
