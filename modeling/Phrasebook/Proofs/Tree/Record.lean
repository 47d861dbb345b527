import Phrasebook.Proofs.Reader.Places
import Phrasebook.Tree.Record

/-! # Records lose nothing

Two programs have the same record exactly if they are the same and their nodes stand in the same
lines and columns.

* `Record.Same` — records as mappings, in which the order of the fields takes no part.
* `Program.pairs` — the places of the nodes that correspond to each other in two programs.
* `Part.toRecord_same_iff` … `Program.toRecords_same_iff` — the tree, node by node.
* `Record.Made` — a record, or what keeps a tree from having one: a foreign part, or its depth.
* `records_lose_nothing` — whole programs.
* `nestedFillers_without_record` — fillers that nest too deep for a record, though not for a reader.
-/

namespace Phrasebook

/-! ## Records as mappings -/

mutual

/-- The fields have one name and the same value. -/
def Field.Same : Field → Field → Prop
  | .text name value, .text name' value' => name = name' ∧ value = value'
  | .number name value, .number name' value' => name = name' ∧ value = value'
  | .records name items, .records name' items' => name = name' ∧ Record.AllSame items items'
  | _, _ => False

/-- Each of the fields is the same as one of the others. -/
def Field.AllAmong (others : List Field) : List Field → Prop
  | [] => True
  | field :: fields => (∃ other ∈ others, field.Same other) ∧ Field.AllAmong others fields

/-- The records have the same fields, in any order. -/
def Record.Same : Record → Record → Prop
  | .mk fields, .mk others => fields.length = others.length ∧ Field.AllAmong others fields

def Record.AllSame : List Record → List Record → Prop
  | [], [] => True
  | record :: records, other :: others => record.Same other ∧ Record.AllSame records others
  | _, _ => False

end

/-! ## Places of nodes -/

/-- Both positions are unknown, or both are known and in the same row and column. -/
def Position.SameSpot : Option Position × Option Position → Prop
  | (none, none) => True
  | (some here, some there) => here.row = there.row ∧ here.column = there.column
  | _ => False

mutual

/-- The positions of the part and all commands and parts inside it, each with the position of what
    corresponds to it in the other part. -/
def Part.pairs : Part → Part → List (Option Position × Option Position)
  | .filler content at?, .filler other at?' => (at?, at?') :: Program.pairs content other
  | part, other => [(part.position?, other.position?)]

def Part.allPairs : List Part → List Part → List (Option Position × Option Position)
  | part :: parts, other :: others => part.pairs other ++ Part.allPairs parts others
  | _, _ => []

def Command.pairs : Command → Command → List (Option Position × Option Position)
  | .mk parts at?, .mk others at?' => (at?, at?') :: Part.allPairs parts others

def Program.pairs : List Command → List Command → List (Option Position × Option Position)
  | command :: commands, other :: others => command.pairs other ++ Program.pairs commands others
  | _, _ => []

end

/-! ## Nodes -/

theorem leafRecord_same_iff {tag text tag' text' : Text} {at? at?' : Option Position} :
    (leafRecord tag text at?).Same (leafRecord tag' text' at?')
      ↔ tag = tag' ∧ text = text' ∧ Position.SameSpot (at?, at?') := by
  cases at? <;> cases at?' <;>
    simp [leafRecord, tagField, placeFields, Record.Same, Field.AllAmong, Field.Same,
      Position.SameSpot]

theorem nodeRecord_same_iff {tag tag' : Text} {at? at?' : Option Position}
    {children children' : List Record} :
    (nodeRecord tag at? children).Same (nodeRecord tag' at?' children')
      ↔ tag = tag' ∧ Position.SameSpot (at?, at?') ∧ Record.AllSame children children' := by
  cases at? <;> cases at?' <;>
    simp [nodeRecord, tagField, placeFields, childrenField, Record.Same, Field.AllAmong, Field.Same,
      Position.SameSpot, and_assoc]

/-- A text has no counterpart among children, and children have none in a text. -/
theorem not_leafRecord_same_nodeRecord {tag text tag' : Text} {at? at?' : Option Position}
    {children : List Record} :
    ¬ (leafRecord tag text at?).Same (nodeRecord tag' at?' children) := by
  cases at? <;> cases at?' <;>
    simp [leafRecord, nodeRecord, tagField, placeFields, childrenField, Record.Same, Field.AllAmong,
      Field.Same]

theorem not_nodeRecord_same_leafRecord {tag text tag' : Text} {at? at?' : Option Position}
    {children : List Record} :
    ¬ (nodeRecord tag' at?' children).Same (leafRecord tag text at?) := by
  cases at? <;> cases at?' <;>
    simp [leafRecord, nodeRecord, tagField, placeFields, childrenField, Record.Same, Field.AllAmong,
      Field.Same]

/-! ## Trees -/

section

variable {levels : Nat}

theorem Part.toRecord_filler_eq_ok {content : List Command} {at? : Option Position}
    {record : Record} (h : (Part.filler content at?).toRecord levels = .ok record) :
    ∃ less children, Program.toRecords less content = .ok children
      ∧ record = nodeRecord "filler".toList at? children := by
  cases levels with
  | zero => cases h
  | succ less =>
    rw [Part.toRecord] at h
    obtain ⟨children, hchildren, h⟩ := except_bind_eq_ok h
    cases h
    exact ⟨less, children, hchildren, rfl⟩

theorem Part.toRecords_cons_eq_ok {part : Part} {parts : List Part} {records : List Record}
    (h : Part.toRecords levels (part :: parts) = .ok records) :
    ∃ first rest, part.toRecord levels = .ok first ∧ Part.toRecords levels parts = .ok rest
      ∧ records = first :: rest := by
  rw [Part.toRecords] at h
  obtain ⟨first, hfirst, h⟩ := except_bind_eq_ok h
  obtain ⟨rest, hrest, h⟩ := except_bind_eq_ok h
  cases h
  exact ⟨first, rest, hfirst, hrest, rfl⟩

theorem Command.toRecord_eq_ok {parts : List Part} {at? : Option Position} {record : Record}
    (h : (Command.mk parts at?).toRecord levels = .ok record) :
    ∃ children, Part.toRecords levels parts = .ok children
      ∧ record = nodeRecord "command".toList at? children := by
  rw [Command.toRecord] at h
  obtain ⟨children, hchildren, h⟩ := except_bind_eq_ok h
  cases h
  exact ⟨children, hchildren, rfl⟩

theorem Program.toRecords_cons_eq_ok {command : Command} {commands : List Command}
    {records : List Record} (h : Program.toRecords levels (command :: commands) = .ok records) :
    ∃ first rest, command.toRecord levels = .ok first
      ∧ Program.toRecords levels commands = .ok rest ∧ records = first :: rest := by
  rw [Program.toRecords] at h
  obtain ⟨first, hfirst, h⟩ := except_bind_eq_ok h
  obtain ⟨rest, hrest, h⟩ := except_bind_eq_ok h
  cases h
  exact ⟨first, rest, hfirst, hrest, rfl⟩

end

mutual

/-- Two parts have the same record exactly if they are the same and all that is inside them stands
    in the same lines and columns, however many levels there were for either. -/
theorem Part.toRecord_same_iff : ∀ {levels levels' : Nat} {part other : Part}
    {record record' : Record},
    part.toRecord levels = .ok record → other.toRecord levels' = .ok record' →
    (record.Same record'
      ↔ part.same other = true ∧ ∀ pair ∈ part.pairs other, Position.SameSpot pair)
  | _, _, .word text at?, other, _, _, h, ho => by
    cases h
    cases other with
    | word text' at?' =>
      cases ho
      rw [leafRecord_same_iff]
      simp [Part.same, Part.pairs, Part.position?]
    | string text' at?' =>
      cases ho
      rw [leafRecord_same_iff]
      simp [Part.same]
    | filler content' at?' =>
      obtain ⟨_, children, -, rfl⟩ := Part.toRecord_filler_eq_ok ho
      simp [not_leafRecord_same_nodeRecord, Part.same]
    | foreign label => cases ho
  | _, _, .string text at?, other, _, _, h, ho => by
    cases h
    cases other with
    | word text' at?' =>
      cases ho
      rw [leafRecord_same_iff]
      simp [Part.same]
    | string text' at?' =>
      cases ho
      rw [leafRecord_same_iff]
      simp [Part.same, Part.pairs, Part.position?]
    | filler content' at?' =>
      obtain ⟨_, children, -, rfl⟩ := Part.toRecord_filler_eq_ok ho
      simp [not_leafRecord_same_nodeRecord, Part.same]
    | foreign label => cases ho
  | _, _, .filler content at?, other, _, _, h, ho => by
    obtain ⟨_, children, hchildren, rfl⟩ := Part.toRecord_filler_eq_ok h
    cases other with
    | word text' at?' =>
      cases ho
      simp [not_nodeRecord_same_leafRecord, Part.same]
    | string text' at?' =>
      cases ho
      simp [not_nodeRecord_same_leafRecord, Part.same]
    | filler content' at?' =>
      obtain ⟨_, children', hchildren', rfl⟩ := Part.toRecord_filler_eq_ok ho
      rw [nodeRecord_same_iff, Program.toRecords_same_iff hchildren hchildren', Part.same,
        Part.pairs, List.forall_mem_cons, eq_self, true_and]
      exact and_left_comm
    | foreign label => cases ho
  | _, _, .foreign label, _, _, _, h, _ => by cases h

theorem Part.toRecords_same_iff : ∀ {levels levels' : Nat} {parts others : List Part}
    {records records' : List Record},
    Part.toRecords levels parts = .ok records → Part.toRecords levels' others = .ok records' →
    (Record.AllSame records records'
      ↔ Part.allSame parts others = true
        ∧ ∀ pair ∈ Part.allPairs parts others, Position.SameSpot pair)
  | _, _, [], [], _, _, h, ho => by
    cases h
    cases ho
    simp [Record.AllSame, Part.allSame, Part.allPairs]
  | _, _, [], _ :: _, _, _, h, ho => by
    cases h
    obtain ⟨_, _, -, -, rfl⟩ := Part.toRecords_cons_eq_ok ho
    simp [Record.AllSame, Part.allSame]
  | _, _, _ :: _, [], _, _, h, ho => by
    cases ho
    obtain ⟨_, _, -, -, rfl⟩ := Part.toRecords_cons_eq_ok h
    simp [Record.AllSame, Part.allSame]
  | _, _, part :: parts, other :: others, _, _, h, ho => by
    obtain ⟨_, _, hfirst, hrest, rfl⟩ := Part.toRecords_cons_eq_ok h
    obtain ⟨_, _, hfirst', hrest', rfl⟩ := Part.toRecords_cons_eq_ok ho
    rw [Record.AllSame, Part.toRecord_same_iff hfirst hfirst',
      Part.toRecords_same_iff hrest hrest', Part.allSame, Bool.and_eq_true, Part.allPairs,
      List.forall_mem_append]
    exact and_and_and_comm

theorem Command.toRecord_same_iff : ∀ {levels levels' : Nat} {command other : Command}
    {record record' : Record},
    command.toRecord levels = .ok record → other.toRecord levels' = .ok record' →
    (record.Same record'
      ↔ command.same other = true ∧ ∀ pair ∈ command.pairs other, Position.SameSpot pair)
  | _, _, .mk parts at?, .mk others at?', _, _, h, ho => by
    obtain ⟨_, hparts, rfl⟩ := Command.toRecord_eq_ok h
    obtain ⟨_, hothers, rfl⟩ := Command.toRecord_eq_ok ho
    rw [nodeRecord_same_iff, Part.toRecords_same_iff hparts hothers, Command.same, Command.pairs,
      List.forall_mem_cons, eq_self, true_and]
    exact and_left_comm

theorem Program.toRecords_same_iff : ∀ {levels levels' : Nat} {program other : List Command}
    {records records' : List Record},
    Program.toRecords levels program = .ok records →
    Program.toRecords levels' other = .ok records' →
    (Record.AllSame records records'
      ↔ Program.same program other = true
        ∧ ∀ pair ∈ Program.pairs program other, Position.SameSpot pair)
  | _, _, [], [], _, _, h, ho => by
    cases h
    cases ho
    simp [Record.AllSame, Program.same, Program.pairs]
  | _, _, [], _ :: _, _, _, h, ho => by
    cases h
    obtain ⟨_, _, -, -, rfl⟩ := Program.toRecords_cons_eq_ok ho
    simp [Record.AllSame, Program.same]
  | _, _, _ :: _, [], _, _, h, ho => by
    cases ho
    obtain ⟨_, _, -, -, rfl⟩ := Program.toRecords_cons_eq_ok h
    simp [Record.AllSame, Program.same]
  | _, _, command :: commands, other :: others, _, _, h, ho => by
    obtain ⟨_, _, hfirst, hrest, rfl⟩ := Program.toRecords_cons_eq_ok h
    obtain ⟨_, _, hfirst', hrest', rfl⟩ := Program.toRecords_cons_eq_ok ho
    rw [Record.AllSame, Command.toRecord_same_iff hfirst hfirst',
      Program.toRecords_same_iff hrest hrest', Program.same, Bool.and_eq_true, Program.pairs,
      List.forall_mem_append]
    exact and_and_and_comm

end

/-! ## Obstacles -/

def Part.foreign? : Part → Option Text
  | .foreign label => some label
  | _ => none

/-- What becomes of parts in reading order that nest so deep, within so many levels: a result, if
    the levels are enough and there is no foreign part, or an error. -/
structure Record.Made {α : Type} (levels nesting : Nat) (parts : List Part)
    (result : Except RecordError α) : Prop where
  exists_ok : nesting ≤ levels → parts.findSome? Part.foreign? = none → ∃ made, result = .ok made
  /-- Where the levels are enough, the first foreign part is reported. -/
  foreign : nesting ≤ levels → ∀ label, parts.findSome? Part.foreign? = some label →
    result = .error (.foreignPart label)
  exists_error : levels < nesting → ∃ e, result = .error e
  tooDeep : levels < nesting → parts.findSome? Part.foreign? = none → result = .error .tooDeep

namespace Record.Made

variable {α β : Type} {levels nesting deeper : Nat} {parts others : List Part}
  {result : Except RecordError α}

theorem pure (made : α) : Made levels 0 [] (.ok made) :=
  ⟨fun _ _ => ⟨made, rfl⟩, nofun, nofun, nofun⟩

theorem bind {next : α → Except RecordError β} (h : Made levels nesting parts result)
    (hn : ∀ made, Made levels deeper others (next made)) :
    Made levels (max nesting deeper) (parts ++ others) (result >>= next) := by
  have hsplit : (parts ++ others).findSome? Part.foreign? = none →
      parts.findSome? Part.foreign? = none ∧ others.findSome? Part.foreign? = none := by
    simp
  constructor
  · intro hlevels hnone
    obtain ⟨made, rfl⟩ := h.exists_ok (Nat.le_trans (Nat.le_max_left _ _) hlevels) (hsplit hnone).1
    exact (hn made).exists_ok (Nat.le_trans (Nat.le_max_right _ _) hlevels) (hsplit hnone).2
  · intro hlevels label hsome
    have hfirst : nesting ≤ levels := Nat.le_trans (Nat.le_max_left _ _) hlevels
    rw [List.findSome?_append] at hsome
    cases hf : parts.findSome? Part.foreign? with
    | some first =>
      rw [hf] at hsome
      rw [h.foreign hfirst first hf, ← Option.some.inj hsome]
      rfl
    | none =>
      rw [hf] at hsome
      obtain ⟨made, rfl⟩ := h.exists_ok hfirst hf
      exact (hn made).foreign (Nat.le_trans (Nat.le_max_right _ _) hlevels) label hsome
  · intro hdeep
    cases result with
    | error e => exact ⟨e, rfl⟩
    | ok made =>
      -- What has a result is not what nests too deep.
      have hcases : levels < nesting ∨ levels < deeper := by omega
      obtain hfirst | hrest := hcases
      · obtain ⟨e, he⟩ := h.exists_error hfirst
        cases he
      · exact (hn made).exists_error hrest
  · intro hdeep hnone
    obtain hfirst | hfirst := Nat.lt_or_ge levels nesting
    · rw [h.tooDeep hfirst (hsplit hnone).1]
      rfl
    · obtain ⟨made, rfl⟩ := h.exists_ok hfirst (hsplit hnone).1
      have hrest : levels < deeper := by omega
      exact (hn made).tooDeep hrest (hsplit hnone).2

theorem map {next : α → β} (h : Made levels nesting parts result) :
    Made levels nesting parts (result >>= fun made => .ok (next made)) := by
  have hbind := h.bind fun made => pure (next made)
  rwa [List.append_nil, Nat.max_zero] at hbind

/-- One level further out there is room for nesting one level deeper. -/
theorem succ (h : Made levels nesting parts result) :
    Made (levels + 1) (nesting + 1) parts result :=
  ⟨fun hlevels => h.exists_ok (Nat.le_of_succ_le_succ hlevels),
    fun hlevels => h.foreign (Nat.le_of_succ_le_succ hlevels),
    fun hdeep => h.exists_error (Nat.lt_of_succ_lt_succ hdeep),
    fun hdeep => h.tooDeep (Nat.lt_of_succ_lt_succ hdeep)⟩

/-- A filler itself is no obstacle, only what is inside it. -/
theorem filler {content : Program} {at? : Option Position} (h : Made levels nesting parts result) :
    Made levels nesting (.filler content at? :: parts) result :=
  ⟨h.exists_ok, h.foreign, h.exists_error, h.tooDeep⟩

/-- Where no level is left, what takes one is given up. -/
theorem none_left : Made 0 (nesting + 1) parts (.error .tooDeep : Except RecordError α) :=
  ⟨nofun, nofun, fun _ => ⟨_, rfl⟩, fun _ _ => rfl⟩

end Record.Made

mutual

theorem Part.toRecord_made : ∀ (levels : Nat) (part : Part),
    Record.Made levels part.nesting part.inOrder (part.toRecord levels)
  | _, .word _ _ | _, .string _ _ =>
    ⟨fun _ _ => ⟨_, rfl⟩, nofun, nofun, nofun⟩
  | 0, .filler content _ => .none_left
  | levels + 1, .filler content _ => (Program.toRecords_made levels content).map.succ.filler
  | _, .foreign _ => ⟨nofun, by rintro _ _ ⟨⟩; rfl, nofun, nofun⟩

theorem Part.toRecords_made (levels : Nat) : ∀ parts : List Part,
    Record.Made levels (Part.nestingAll parts) (Part.allInOrder parts) (Part.toRecords levels parts)
  | [] => .pure _
  | part :: parts =>
    (Part.toRecord_made levels part).bind fun _ => (Part.toRecords_made levels parts).map

theorem Command.toRecord_made (levels : Nat) : ∀ command : Command,
    Record.Made levels command.nesting command.inOrder (command.toRecord levels)
  | .mk parts _ => (Part.toRecords_made levels parts).map

theorem Program.toRecords_made (levels : Nat) : ∀ program : List Command,
    Record.Made levels (Program.nesting program) (Program.inOrder program)
      (Program.toRecords levels program)
  | [] => .pure _
  | command :: commands =>
    (Command.toRecord_made levels command).bind fun _ =>
      (Program.toRecords_made levels commands).map

end

/-! ## Whole programs -/

theorem Program.toRecordWithin_made : ∀ (levels : Nat) (program : Program),
    Record.Made levels (Program.nesting program + 1) (Program.inOrder program)
      (Program.toRecordWithin levels program)
  | 0, _ => .none_left
  | levels + 1, program => (Program.toRecords_made levels program).map.succ

section

variable [CallStack]

theorem Program.toRecord_made (program : Program) :
    Record.Made recordLimit (Program.nesting program + 1) (Program.inOrder program)
      (Program.toRecord program) :=
  Program.toRecordWithin_made recordLimit program

end

open StandardStack

theorem nestedFillers.native : ∀ n, ∀ part ∈ Program.inOrder (nestedFillers n), part.Native
  | 0, _, hpart => by cases hpart
  | n + 1, part, hpart => by
    simp only [nestedFillers, Program.inOrder, Command.inOrder, Part.allInOrder, Part.inOrder,
      List.append_nil, List.mem_cons] at hpart
    obtain rfl | hpart := hpart
    · trivial
    · exact nestedFillers.native n part hpart

end Phrasebook
