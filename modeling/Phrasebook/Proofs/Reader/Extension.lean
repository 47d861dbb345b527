import Phrasebook.Proofs.Reader.Steps

/-! # Reading a longer text

Two readings that begin at one place, the second in a text that goes on where the first text ends.
What the first has read before the end of its text is read again by the second, and so is every
fault that no further text can mend.

* `Cursor.append`, `ParseFault.IsFinal` — the longer text, and the faults that remain.
* `Reader.Step.Extends`, `Reader.Reading.Extends` — how the second reading goes on from the first.
* `Reader.word_extends`, …, `Reader.program_extends` — one lemma for each reading function.
* `parse_append_of_isClosure`, `parse_append_commands` — whole texts.
-/

namespace Phrasebook

/-- The cursor at the same place of a text that goes on with `more`. -/
def Cursor.append (cursor : Cursor) (more : Text) : Cursor :=
  ⟨cursor.position, cursor.rest ++ more⟩

theorem Cursor.next_append {cursor : Cursor} (h : cursor.rest ≠ []) (more : Text) :
    (cursor.append more).next = cursor.next.append more := by
  obtain ⟨here, text⟩ := cursor
  cases text with
  | nil => exact absurd rfl h
  | cons c rest => rfl

/-- Further text cannot take the fault back: something is closed that was never opened, or too much
    is open already. -/
def ParseFault.IsFinal : ParseFault → Prop
  | .malformed e => e.cause.isClosure = true
  | .tooDeep => True

theorem Cursor.skipWhile_append {p : Char → Bool} {cursor : Cursor}
    (h : (cursor.skipWhile p).rest ≠ []) (more : Text) :
    (cursor.append more).skipWhile p = (cursor.skipWhile p).append more := by
  obtain ⟨here, text⟩ := cursor
  have hdrop : text.dropWhile p ≠ [] := h
  -- Some character is not skipped, so no further one is either.
  have htake : (text.takeWhile p).length ≠ text.length := by
    intro heq
    have hsplit := congrArg List.length (List.takeWhile_append_dropWhile (p := p) (l := text))
    rw [List.length_append, heq] at hsplit
    exact hdrop (List.length_eq_zero_iff.1 (by omega))
  simp [Cursor.skipWhile, Cursor.append, List.takeWhile_append, List.dropWhile_append, htake, hdrop]

namespace Reader

variable {α : Type} {more : Text}

theorem mark?_append {cursor : Cursor} (h : cursor.rest ≠ []) (more : Text) :
    mark? (cursor.append more) = mark? cursor := by
  obtain ⟨here, text⟩ := cursor
  cases text with
  | nil => exact absurd rfl h
  | cons c rest => rfl

/-! ## How a second reading goes on from a first -/

/-- What was read before the end of the shorter text is read in the longer one too, and a final
    fault is met again. -/
def Step.Extends (more : Text) : Step α → Step α → Prop
  | .ok (read, after), long => after.rest ≠ [] → long = .ok (read, after.append more)
  | .error fault, long => fault.IsFinal → long = .error fault

/-- The same for sequences of commands. Whatever stops the first reading before the end of its
    text, the commands before are those that the second reading begins with. -/
def Reading.Extends (more : Text) (short long : Reading) : Prop :=
  match short.stop with
  | .endOfText => True
  | .closing stop => long = ⟨short.commands, .closing (stop.append more)⟩
  | .failed fault => short.commands <+: long.commands ∧ (fault.IsFinal → long = short)

theorem Step.Extends.map {β : Type} {short long : Step α} (h : short.Extends more long)
    (f : α → β) : (short.map f).Extends more (long.map f) := by
  match short with
  | .ok (read, after) =>
    intro hne
    rw [h hne]
    rfl
  | .error fault =>
    intro hfinal
    rw [h hfinal]
    rfl

theorem Step.Extends.cons {piece : α} {short long : Step (List α)} (h : short.Extends more long) :
    (short.cons piece).Extends more (long.cons piece) := by
  rw [Step.cons_eq_map, Step.cons_eq_map]
  exact h.map _

theorem Reading.Extends.cons {command : Command} {short long : Reading}
    (h : short.Extends more long) : (short.cons command).Extends more (long.cons command) := by
  obtain ⟨commands, stop⟩ := short
  cases stop with
  | endOfText => trivial
  | closing stop =>
    have hlong : long = ⟨commands, .closing (stop.append more)⟩ := h
    rw [hlong]
    rfl
  | failed fault =>
    obtain ⟨hcommands, hfinal⟩ := h
    refine ⟨(List.prefix_cons_inj command).2 hcommands, ?_⟩
    intro hf
    rw [hfinal hf]

/-- A level reads longer texts as it reads their beginnings. -/
def Level.Extends (more : Text) (level : Level) : Prop :=
  ∀ cursor, (level.read cursor).Extends more (level.read (cursor.append more))

/-! ## Words and strings -/

theorem word_extends (more : Text) (here : Position) (text : Text) :
    (word here text).Extends more (word here (text ++ more)) := by
  fun_induction word here text with
  | case1 => exact fun hne => absurd rfl hne
  | case2 here c rest hm ih =>
    simp only [List.cons_append, word, hm]
    exact ih.cons
  | case3 =>
    intro hfinal
    cases hfinal
  | case4 here c d rest hm ih =>
    simp only [List.cons_append, word, hm]
    exact ih.cons
  | case5 here c rest hplain hlast hescape =>
    intro _
    -- The character that ends the word is there in the longer text as well.
    refine word_of_endsWord ?_ here
    intro d hd
    obtain rfl : c = d := by simpa using hd
    have hne := ne_escape hlast hescape
    cases hm : Mark.of c with
    | plain => exact (hplain hm).elim
    | escape => exact absurd hm hne
    | _ => rfl

theorem quoted_extends (more : Text) (opening : Position) (nesting : Nat) (here : Position)
    (text : Text) :
    (quoted opening nesting here text).Extends more
      (quoted opening nesting here (text ++ more)) := by
  fun_induction quoted opening nesting here text with
  | case1 =>
    intro hfinal
    cases hfinal
  | case2 =>
    intro hfinal
    cases hfinal
  | case3 nesting here c d rest hm ih =>
    simp only [List.cons_append, quoted, hm]
    exact ih.cons.cons
  | case4 nesting here c rest hm ih =>
    simp only [List.cons_append, quoted, hm]
    exact ih.cons
  | case5 here c rest hm =>
    simp only [List.cons_append, quoted, hm]
    exact fun _ => rfl
  | case6 here c rest hm nesting ih =>
    simp only [List.cons_append, quoted, hm]
    exact ih.cons
  | case7 nesting here c rest hlast hescape hopen hclose ih =>
    have hne := ne_escape hlast hescape
    rw [List.cons_append, quoted_cons hne hopen hclose]
    exact ih.cons

/-! ## Parts -/

variable {level : Level}

theorem filler_extends (hl : level.Extends more) {cursor : Cursor} (h : cursor.rest ≠ []) :
    (filler level cursor).Extends more (filler level (cursor.append more)) := by
  have hinside := hl cursor.next
  rw [← Cursor.next_append h] at hinside
  rw [filler, filler]
  generalize level.read cursor.next = short at hinside
  generalize level.read (cursor.append more).next = long at hinside
  obtain ⟨content, stop⟩ := short
  cases stop with
  | endOfText =>
    intro hfinal
    cases hfinal
  | failed fault =>
    intro hfinal
    rw [hinside.2 hfinal]
  | closing stop =>
    have hlong : long = ⟨content, .closing (stop.append more)⟩ := hinside
    intro hne
    -- There is something behind the parenthesis, so the parenthesis itself is there.
    have hstop : stop.rest ≠ [] := by
      intro hnil
      apply hne
      rw [Cursor.next, hnil]
      exact hnil
    rw [hlong]
    dsimp only
    rw [Cursor.next_append hstop]
    rfl

theorem string_extends {cursor : Cursor} (h : cursor.rest ≠ []) :
    (string cursor).Extends more (string (cursor.append more)) := by
  have hinside := quoted_extends more cursor.position 0 cursor.next.position cursor.next.rest
  rw [string_eq_map, string_eq_map, Cursor.next_append h]
  exact hinside.map _

theorem bareWord_extends (more : Text) (cursor : Cursor) :
    (bareWord cursor).Extends more (bareWord (cursor.append more)) := by
  rw [bareWord_eq_map, bareWord_eq_map]
  exact (word_extends more cursor.position cursor.rest).map _

theorem part_append_eq_none {cursor : Cursor} (h : part level cursor = none)
    (hne : cursor.rest ≠ []) : part level (cursor.append more) = none := by
  obtain ⟨here, text⟩ := cursor
  cases text with
  | nil => exact absurd rfl hne
  | cons c rest => exact part_eq_none_iff.2 (part_eq_none_iff.1 h)

theorem part_extends (hl : level.Extends more) {cursor : Cursor} {short : Step Part}
    (h : part level cursor = some short) :
    ∃ long, part level (cursor.append more) = some long ∧ short.Extends more long := by
  cases hm : mark? cursor with
  | none =>
    rw [part, hm] at h
    cases h
  | some mark =>
    have hne := rest_ne_nil_of_mark? hm
    rw [part, hm] at h
    rw [part, mark?_append hne, hm]
    cases mark with
    | fillerOpen =>
      cases h
      exact ⟨_, rfl, filler_extends hl hne⟩
    | stringOpen =>
      cases h
      exact ⟨_, rfl, string_extends hne⟩
    | plain | escape =>
      cases h
      exact ⟨_, rfl, bareWord_extends more cursor⟩
    | _ => cases h

/-! ## Commands -/

theorem moreParts_extends (hl : level.Extends more) (cursor : Cursor) :
    (moreParts level cursor).Extends more (moreParts level (cursor.append more)) := by
  fun_induction moreParts level cursor with
  | case1 cursor read after hp ih =>
    obtain ⟨long, hlong, hext⟩ := part_extends hl hp
    by_cases hne : after.rest = []
    -- A command that goes up to the end of the shorter text may go on in the longer one.
    · rw [moreParts_of_rest_eq_nil hne]
      exact fun h => absurd hne h
    · rw [hext hne] at hlong
      rw [moreParts_of_part_eq_some hlong]
      exact ih.cons
  | case2 cursor fault hp =>
    obtain ⟨long, hlong, hext⟩ := part_extends hl hp
    intro hfinal
    rw [hext hfinal] at hlong
    exact moreParts_of_part_eq_error hlong
  | case3 cursor hp hm ih =>
    have hne := rest_ne_nil_of_mark? hm
    rw [moreParts_of_part_eq_none (part_append_eq_none hp hne), mark?_append hne, hm]
    dsimp only
    rw [Cursor.next_append hne]
    exact ih
  | case4 cursor hp hm =>
    have hne := rest_ne_nil_of_mark? hm
    intro _
    rw [moreParts_of_part_eq_none (part_append_eq_none hp hne), mark?_append hne, hm]
    dsimp only
    rw [Cursor.next_append hne]
  | case5 cursor hp hm =>
    have hne := rest_ne_nil_of_mark? hm
    intro _
    rw [moreParts_of_part_eq_none (part_append_eq_none hp hne), mark?_append hne, hm]
    rfl
  | case6 cursor hp hblank hterminator hclose =>
    intro hne
    rw [moreParts_of_part_eq_none (part_append_eq_none hp hne), mark?_append hne]
    split <;> simp_all

theorem command_append_eq_none {cursor : Cursor} (h : command level cursor = none)
    (hne : cursor.rest ≠ []) : command level (cursor.append more) = none :=
  command_eq_none_iff.2 (part_append_eq_none (command_eq_none_iff.1 h) hne)

theorem command_extends (hl : level.Extends more) {cursor : Cursor} {short : Step Command}
    (h : command level cursor = some short) :
    ∃ long, command level (cursor.append more) = some long ∧ short.Extends more long := by
  cases hp : part level cursor with
  | none =>
    rw [command_eq_none_iff.2 hp] at h
    cases h
  | some step =>
    obtain ⟨further, hfurther, -⟩ := part_extends hl hp
    rw [command_of_part_eq_some hp] at h
    cases h
    exact ⟨_, command_of_part_eq_some hfurther, (moreParts_extends hl cursor).map _⟩

/-! ## Programs -/

/-- A comment that ends before the end of the shorter text ends there in the longer text too. -/
theorem skipComment_append {cursor : Cursor} (hne : cursor.rest ≠ [])
    (h : (skipComment cursor).rest ≠ []) :
    skipComment (cursor.append more) = (skipComment cursor).append more := by
  rw [skipComment, Cursor.next_append hne]
  exact Cursor.skipWhile_append h more

theorem program_extends (hl : level.Extends more) (cursor : Cursor) :
    (program level cursor).Extends more (program level (cursor.append more)) := by
  fun_induction program level cursor with
  | case1 cursor read after hc ih =>
    by_cases hne : after.rest = []
    · -- More text may go on with the command that ends here.
      rw [program_of_rest_eq_nil hne]
      trivial
    · obtain ⟨long, hlong, hext⟩ := command_extends hl hc
      rw [hext hne] at hlong
      rw [program_of_command_eq_some hlong]
      exact ih.cons
  | case2 cursor fault hc =>
    obtain ⟨long, hlong, hext⟩ := command_extends hl hc
    refine ⟨List.nil_prefix, ?_⟩
    intro hfinal
    rw [hext hfinal] at hlong
    exact program_of_command_eq_error hlong
  | case3 => trivial
  | case4 cursor hc hm =>
    have hne := rest_ne_nil_of_mark? hm
    show program level (cursor.append more) = _
    rw [program_of_command_eq_none (command_append_eq_none hc hne), mark?_append hne, hm]
  | case5 cursor hc hm =>
    have hne := rest_ne_nil_of_mark? hm
    refine ⟨List.nil_prefix, ?_⟩
    intro _
    rw [program_of_command_eq_none (command_append_eq_none hc hne), mark?_append hne, hm]
    rfl
  | case6 cursor hc hm ih =>
    have hne := rest_ne_nil_of_mark? hm
    rw [program_of_command_eq_none (command_append_eq_none hc hne), mark?_append hne, hm]
    dsimp only
    by_cases hbehind : (skipComment cursor).rest = []
    · rw [program_of_rest_eq_nil hbehind]
      trivial
    · rw [skipComment_append hne hbehind]
      exact ih
  | case7 cursor hc mark hclose hstring hcomment hm ih =>
    have hne := rest_ne_nil_of_mark? hm
    rw [program_of_command_eq_none (command_append_eq_none hc hne), mark?_append hne, hm,
      Cursor.next_append hne]
    rcases skips_of_command_eq_none hc hm hclose hstring hcomment with rfl | rfl <;> exact ih

theorem atLevel_extends (more : Text) : ∀ n, (atLevel n).Extends more
  | 0 => fun _ => ⟨List.nil_prefix, fun _ => rfl⟩
  | n + 1 => fun cursor => program_extends (atLevel_extends more n) cursor

end Reader

/-! ## Whole texts -/

variable [CallStack]

/-- A closing character that closes nothing is met again whatever follows, behind the same
    commands. -/
theorem parse_append_of_isClosure {text : Text} {program : Program} {error : SyntaxError}
    (h : parse text = .ok ⟨program, .fatal error⟩) (hc : error.cause.isClosure = true)
    (more : Text) : parse (text ++ more) = .ok ⟨program, .fatal error⟩ := by
  have hext := Reader.atLevel_extends more nestingLimit (.atStart text)
  change Reader.Reading.Extends more _
    ((Reader.atLevel nestingLimit).read (.atStart (text ++ more))) at hext
  rw [parse, parseWithin] at h ⊢
  generalize (Reader.atLevel nestingLimit).read (.atStart text) = short at h hext
  generalize (Reader.atLevel nestingLimit).read (.atStart (text ++ more)) = long at hext ⊢
  obtain ⟨commands, stop⟩ := short
  cases stop with
  | endOfText => cases h
  | closing stop =>
    have hlong : long = ⟨commands, .closing (stop.append more)⟩ := hext
    rw [hlong]
    exact h
  | failed fault =>
    cases fault with
    | tooDeep => cases h
    | malformed e =>
      simp only [Except.ok.injEq, Parse.mk.injEq] at h
      obtain ⟨rfl, he⟩ := h
      obtain ⟨rfl, -⟩ := Ending.ofError_eq_fatal_iff.1 he
      rw [hext.2 hc]
      exact congrArg (fun ending => Except.ok (Parse.mk commands ending)) he

/-- The commands reported for a text that is not read to its end are reported first for every text
    that goes on from it. -/
theorem parse_append_commands {text more : Text} {short long : Parse} (h : parse text = .ok short)
    (hn : short.ending ≠ .clean) (hlong : parse (text ++ more) = .ok long) :
    short.program <+: long.program := by
  have hext := Reader.atLevel_extends more nestingLimit (.atStart text)
  have hcommands := commands_of_parse h
  have hmore : ((Reader.atLevel nestingLimit).read ((Cursor.atStart text).append more)).commands
      = long.program := commands_of_parse hlong
  rw [parse, parseWithin] at h
  generalize (Reader.atLevel nestingLimit).read (.atStart text) = reading at h hext hcommands
  obtain ⟨commands, stop⟩ := reading
  rw [← hcommands, ← hmore]
  cases stop with
  | endOfText =>
    cases h
    exact absurd rfl hn
  | closing stop =>
    have heq : (Reader.atLevel nestingLimit).read ((Cursor.atStart text).append more)
        = ⟨commands, .closing (stop.append more)⟩ := hext
    exact ⟨[], by rw [heq, List.append_nil]⟩
  | failed fault => exact hext.1

end Phrasebook
