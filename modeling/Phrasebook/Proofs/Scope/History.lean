import Phrasebook.Proofs.Scope.Persistence

/-! # Frames and their history

What frames bind, told by what was done to them. A history is a list of operations, the first one
first; all that is said about it here is said without a store.

* `Store.Operation` — what can be done to frames.
* `Store.History` — the frames that were made, each by the frame around it, and the log of what was
  registered in each of them.
* `Store.History.Within`, `Store.History.Nearest` — the frames around a frame, and the nearest one
  in which a key was registered.
* `Store.History.run` — the store that a history leads to.
* `Store.FollowsHistory` — what such a store has to do with the history, kept by every operation.
* `Store.History.Valid.followsHistory` — the store that a history leads to follows it.
-/

namespace Phrasebook

variable {Act : Type}

namespace Store

/-! ## Operations -/

/-- What can be done to frames: a new frame with no frame around it or with one, and a registration.
    The key of a registration is given as it is spelled, its words in any case. -/
inductive Operation (Act : Type) where
  | root
  | child (scope : FrameId)
  | register (frame : FrameId) (spelling : List KeyPart) (entry : Entry Act)

namespace Operation

/-- The frame that has to be there for the operation. -/
def subject? : Operation Act → Option FrameId
  | root => none
  | child scope => some scope
  | register frame _ _ => some frame

/-- The new frame, if the operation makes one, by the frame around it. -/
def makes? : Operation Act → Option (Option FrameId)
  | root => some none
  | child scope => some (some scope)
  | register _ _ _ => none

/-- What the operation registers in a frame. Something that is no stored value and no action is
    registered nowhere. -/
def registers? (frame : FrameId) : Operation Act → Option (Key × Entry Act)
  | register other spelling entry =>
    if other = frame ∧ entry.isProper = true then some (.ofParts spelling, entry) else none
  | root | child _ => none

def perform (store : Store Act) : Operation Act → Except ImproperEntry (Store Act)
  | root => .ok store.root.2
  | child scope => .ok (store.child scope).2
  | register frame spelling entry => store.register frame (.ofParts spelling) entry

/-- The store behind an operation: the one that it makes, or the same as before if it is refused. -/
def behind (store : Store Act) (operation : Operation Act) : Store Act :=
  match operation.perform store with
  | .ok after => after
  | .error _ => store

end Operation

/-! ## Histories -/

/-- What was done to frames, the first operation first. -/
abbrev History (Act : Type) := List (Operation Act)

namespace History

variable {history : History Act} {operation : Operation Act} {frame parent : FrameId} {key : Key}

/-- The frames that were made, in order, each by the frame around it. -/
def frames (history : History Act) : List (Option FrameId) := history.filterMap Operation.makes?

/-- The frame that the frame was made in. -/
def parent? (history : History Act) (frame : FrameId) : Option FrameId :=
  history.frames[frame]?.join

/-- All that was registered in the frame, in order. -/
def log (history : History Act) (frame : FrameId) : List (Key × Entry Act) :=
  history.filterMap (Operation.registers? frame)

/-- What was registered under the key in the frame last. -/
def latest? (history : History Act) (frame : FrameId) (key : Key) : Option (Entry Act) :=
  (history.log frame).reverse.findSome? fun (k, entry) => if k = key then some entry else none

/-- The key was registered in the frame at some time. -/
def Registers (history : History Act) (frame : FrameId) (key : Key) : Prop :=
  ∃ entry, (key, entry) ∈ history.log frame

/-- The keys that were registered in the frame, each once, in the order of the first time. -/
def keys (history : History Act) (frame : FrameId) : List Key :=
  ((history.log frame).map Prod.fst).eraseDups

/-- The frame, or one around it. -/
inductive Within (history : History Act) : FrameId → FrameId → Prop where
  | refl (frame : FrameId) : Within history frame frame
  | step {frame parent outer : FrameId} : history.parent? frame = some parent →
      Within history parent outer → Within history frame outer

/-- Of the frame and those around it, the nearest one in which the key was registered. -/
inductive Nearest (history : History Act) (key : Key) : FrameId → FrameId → Prop where
  | here {frame : FrameId} : history.Registers frame key → Nearest history key frame frame
  | around {frame parent owner : FrameId} : ¬ history.Registers frame key →
      history.parent? frame = some parent → Nearest history key parent owner →
      Nearest history key frame owner

/-- Every operation is on a frame that was made before. -/
inductive Valid : History Act → Prop where
  | nil : Valid []
  | concat {history : History Act} {operation : Operation Act} : Valid history →
      (∀ frame ∈ operation.subject?, frame < history.frames.length) →
      Valid (history ++ [operation])

/-- The store that the history leads to. -/
def run (history : History Act) : Store Act := history.foldl Operation.behind empty

/-! ### One more operation -/

theorem run_concat (history : History Act) (operation : Operation Act) :
    run (history ++ [operation]) = operation.behind history.run :=
  List.foldl_append

theorem frames_concat (history : History Act) (operation : Operation Act) :
    frames (history ++ [operation]) = history.frames ++ operation.makes?.toList := by
  rw [frames, List.filterMap_append]
  cases h : operation.makes? <;> simp [frames, h]

theorem parent?_concat_of_makes (history : History Act) {around : Option FrameId}
    (h : operation.makes? = some around) (frame : FrameId) : parent? (history ++ [operation]) frame
      = if frame = history.frames.length then around else history.parent? frame := by
  rw [parent?, frames_concat, h, Option.toList_some, List.getElem?_append]
  by_cases hlt : frame < history.frames.length
  · rw [if_pos hlt, if_neg (Nat.ne_of_lt hlt), parent?]
  · by_cases heq : frame = history.frames.length
    · simp [heq]
    · have hnone : history.frames[frame]? = none := List.getElem?_eq_none (Nat.not_lt.1 hlt)
      have hbeyond : [around].length ≤ frame - history.frames.length :=
        Nat.sub_pos_of_lt (Nat.lt_of_le_of_ne (Nat.not_lt.1 hlt) (Ne.symm heq))
      rw [if_neg hlt, if_neg heq, parent?, hnone, List.getElem?_eq_none hbeyond]

theorem parent?_concat_of_makes_eq_none (history : History Act) (h : operation.makes? = none)
    (frame : FrameId) : parent? (history ++ [operation]) frame = history.parent? frame := by
  rw [parent?, frames_concat, h, Option.toList_none, List.append_nil, parent?]

theorem log_concat (history : History Act) (operation : Operation Act) (frame : FrameId) :
    log (history ++ [operation]) frame
      = history.log frame ++ (operation.registers? frame).toList := by
  rw [log, List.filterMap_append]
  cases h : operation.registers? frame <;> simp [log, h]

theorem log_concat_of_none (history : History Act) (h : operation.registers? frame = none) :
    log (history ++ [operation]) frame = history.log frame := by
  rw [log_concat, h, Option.toList_none, List.append_nil]

/-! ### One registration -/

section

variable {other : FrameId} {spelling : List KeyPart} {entry : Entry Act}

theorem parent?_register (history : History Act) (frame : FrameId) (spelling : List KeyPart)
    (entry : Entry Act) (other : FrameId) :
    parent? (history ++ [.register frame spelling entry]) other = history.parent? other :=
  parent?_concat_of_makes_eq_none history rfl other

theorem log_register (he : entry.isProper = true) :
    log (history ++ [.register frame spelling entry]) frame
      = history.log frame ++ [(.ofParts spelling, entry)] := by
  simp [log_concat, Operation.registers?, he]

theorem log_register_of_ne (h : other ≠ frame) :
    log (history ++ [.register frame spelling entry]) other = history.log other :=
  log_concat_of_none history (by simp [Operation.registers?, h.symm])

theorem log_register_of_improper (he : entry.isProper = false) (other : FrameId) :
    log (history ++ [.register frame spelling entry]) other = history.log other :=
  log_concat_of_none history (by simp [Operation.registers?, he])

end

/-! ### Logs -/

theorem latest?_isSome_iff :
    (history.latest? frame key).isSome = true ↔ history.Registers frame key := by
  rw [latest?, List.findSome?_isSome_iff]
  constructor
  · rintro ⟨⟨k, entry⟩, hmem, hsome⟩
    by_cases hk : k = key
    · exact ⟨entry, hk ▸ List.mem_reverse.1 hmem⟩
    · simp [hk] at hsome
  · rintro ⟨entry, hmem⟩
    exact ⟨(key, entry), List.mem_reverse.2 hmem, by simp⟩

theorem latest?_of_log_concat {later : History Act} {k : Key} {entry : Entry Act}
    (h : later.log frame = history.log frame ++ [(k, entry)]) (key : Key) :
    later.latest? frame key = if k = key then some entry else history.latest? frame key := by
  rw [latest?, h, List.reverse_concat, List.findSome?_cons]
  by_cases hk : k = key <;> simp [hk, latest?]

theorem keys_of_log_concat {later : History Act} {k : Key} {entry : Entry Act}
    (h : later.log frame = history.log frame ++ [(k, entry)]) :
    later.keys frame = if k ∈ history.keys frame then history.keys frame
      else history.keys frame ++ [k] := by
  have hmem : k ∈ history.keys frame ↔ k ∈ (history.log frame).map Prod.fst := List.mem_eraseDups
  rw [keys, h, List.map_append, List.eraseDups_append]
  by_cases hk : k ∈ (history.log frame).map Prod.fst
  · rw [if_pos (hmem.2 hk)]
    simp [List.removeAll, keys, hk]
  · rw [if_neg (mt hmem.1 hk)]
    simp [List.removeAll, keys, hk, List.eraseDups_cons]

end History

/-! ## Stores that follow their history -/

theorem outer_add_size (store : Store Act) (around : List FrameId) :
    (store.add around).2.outer store.size = around := by
  simp [outer, add, size]

theorem outer_add_of_ne (store : Store Act) (around : List FrameId) {other : FrameId}
    (h : other ≠ store.size) : (store.add around).2.outer other = store.outer other := by
  have hne : other ≠ store.frames.size := h
  simp [outer, add, Array.getElem?_push, hne]

/-- The store has the frames of the history, each inside the frames around it, and each frame binds
    what is in its log. -/
structure FollowsHistory (store : Store Act) (history : History Act) : Prop where
  size_eq : store.size = history.frames.length
  parent_lt : ∀ frame parent, history.parent? frame = some parent → parent < frame
  outer_eq : ∀ frame, store.outer frame = (history.parent? frame).elim [] store.chain
  find?_eq : ∀ frame key, (store.bindings frame).find? key = history.latest? frame key
  keys_eq : ∀ frame, store.keys frame = history.keys frame

namespace FollowsHistory

variable {store : Store Act} {history : History Act} {operation : Operation Act}

theorem empty : (empty : Store Act).FollowsHistory [] :=
  ⟨rfl, nofun, fun _ => rfl, fun _ _ => rfl, fun _ => rfl⟩

/-- Only frames that were made have a frame around them. -/
theorem lt_size (h : store.FollowsHistory history) {frame parent : FrameId}
    (hp : history.parent? frame = some parent) : frame < store.size := by
  rw [h.size_eq]
  refine Nat.lt_of_not_le fun hle => ?_
  rw [History.parent?, List.getElem?_eq_none hle] at hp
  cases hp

/-- A new frame has the scope that it is made in around it, and nothing in its log. -/
theorem add (h : store.FollowsHistory history) {around : Option FrameId}
    (hmakes : operation.makes? = some around) (hlog : ∀ frame, operation.registers? frame = none)
    (haround : ∀ scope ∈ around, scope < store.size) :
    (store.add (around.elim [] store.chain)).2.FollowsHistory (history ++ [operation]) := by
  have hparent := fun frame => history.parent?_concat_of_makes hmakes frame
  have hlogs := fun frame => history.log_concat_of_none (hlog frame)
  have hchain : ∀ scope < store.size,
      store.chain scope = (store.add (around.elim [] store.chain)).2.chain scope :=
    fun scope hscope => congrArg (scope :: ·) (outer_add _ _ hscope).symm
  simp only [← h.size_eq] at hparent
  constructor
  · rw [History.frames_concat, hmakes, List.length_append, ← h.size_eq]
    exact Array.size_push _
  · intro frame parent hp
    rw [hparent] at hp
    split at hp
    · next hframe =>
      subst hframe
      exact haround parent hp
    · exact h.parent_lt frame parent hp
  · intro frame
    rw [hparent]
    split
    · next hframe =>
      -- The new frame has the chain of the scope around it, which the frame itself is not on.
      subst hframe
      rw [outer_add_size]
      cases around with
      | none => rfl
      | some scope => exact hchain scope (haround scope rfl)
    · next hframe =>
      rw [outer_add_of_ne _ _ hframe, h.outer_eq]
      cases hp : history.parent? frame with
      | none => rfl
      | some parent =>
        have hlt : parent < store.size := Nat.lt_trans (h.parent_lt frame parent hp) (h.lt_size hp)
        exact hchain parent hlt
  · intro frame key
    rw [bindings_add, h.find?_eq, History.latest?, History.latest?, hlogs]
  · intro frame
    rw [keys, bindings_add, History.keys, hlogs]
    exact h.keys_eq frame

/-- An operation that makes no frame leaves the frames as they are. -/
theorem keepFrames (h : store.FollowsHistory history) (hmakes : operation.makes? = none)
    {after : Store Act} (hsize : after.size = store.size)
    (houter : ∀ frame, after.outer frame = store.outer frame)
    (hfind : ∀ frame key,
      (after.bindings frame).find? key = History.latest? (history ++ [operation]) frame key)
    (hkeys : ∀ frame, after.keys frame = History.keys (history ++ [operation]) frame) :
    after.FollowsHistory (history ++ [operation]) := by
  have hparent := history.parent?_concat_of_makes_eq_none hmakes
  have hchain : after.chain = store.chain :=
    funext fun scope => congrArg (scope :: ·) (houter scope)
  refine ⟨?_, fun frame parent hp => h.parent_lt frame parent (hparent frame ▸ hp), fun frame => ?_,
    hfind, hkeys⟩
  · rw [hsize, h.size_eq, History.frames_concat, hmakes, Option.toList_none, List.append_nil]
  · rw [houter, hparent, hchain, h.outer_eq]

/-- Registering anything changes one of the logs. -/
theorem bind (h : store.FollowsHistory history) {frame : FrameId} (hframe : frame < store.size)
    (spelling : List KeyPart) {entry : Entry Act} (he : entry.isProper = true) :
    (store.bind frame (.ofParts spelling) entry).FollowsHistory
      (history ++ [.register frame spelling entry]) := by
  refine h.keepFrames rfl (size_bind ..) (fun _ => outer_bind ..) (fun other key => ?_)
    fun other => ?_
  · rw [bindings_find?_bind hframe, h.find?_eq]
    by_cases hother : other = frame
    · subst hother
      rw [History.latest?_of_log_concat (History.log_register he)]
      simp
    · rw [History.latest?, History.latest?, History.log_register_of_ne hother]
      simp [Ne.symm hother]
  · rw [keys, bindings_bind _ _ _ _ _ hframe]
    by_cases hother : other = frame
    · subst hother
      rw [if_pos rfl, Bindings.keys_insert,
        History.keys_of_log_concat (History.log_register he), ← h.keys_eq]
      rfl
    · rw [if_neg (Ne.symm hother), History.keys, History.log_register_of_ne hother]
      exact h.keys_eq other

/-- What must not be registered is in no log. -/
theorem refuse (h : store.FollowsHistory history) (frame : FrameId) (spelling : List KeyPart)
    {entry : Entry Act} (he : entry.isProper = false) :
    store.FollowsHistory (history ++ [.register frame spelling entry]) := by
  refine h.keepFrames rfl rfl (fun _ => rfl) (fun other key => ?_) fun other => ?_
  · rw [h.find?_eq, History.latest?, History.latest?, History.log_register_of_improper he]
  · rw [h.keys_eq, History.keys, History.keys, History.log_register_of_improper he]

/-- One operation more on both sides. -/
theorem behind (h : store.FollowsHistory history)
    (hs : ∀ frame ∈ operation.subject?, frame < history.frames.length) :
    (operation.behind store).FollowsHistory (history ++ [operation]) := by
  rw [← h.size_eq] at hs
  cases operation with
  | root =>
    have hmakes : (Operation.root : Operation Act).makes? = some none := rfl
    exact h.add hmakes (fun _ => rfl) nofun
  | child scope =>
    have hmakes : (Operation.child scope : Operation Act).makes? = some (some scope) := rfl
    exact h.add hmakes (fun _ => rfl) hs
  | register frame spelling entry =>
    cases entry with
    | stored value => exact h.bind (hs frame rfl) spelling rfl
    | action act => exact h.bind (hs frame rfl) spelling rfl
    | foreign shown kind => exact h.refuse frame spelling rfl

end FollowsHistory

/-- Whatever is done to frames, the store follows the history. -/
theorem History.Valid.followsHistory {history : History Act} (h : history.Valid) :
    history.run.FollowsHistory history := by
  induction h with
  | nil => exact .empty
  | concat _ hs ih =>
    rw [run_concat]
    exact ih.behind hs

end Store

end Phrasebook
