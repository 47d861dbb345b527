import Phrasebook.Proofs.Reader.Steps
import Phrasebook.Proofs.Scan.Machine

/-! # The reader and the scan agree

The reader descends into fillers and the scan keeps a stack of them. Each reading function takes
the scan from a state in normal mode to another with the same stack, and where a function fails the
scan says why.

* `ParseFault.Follows`, `Stop.Follows` — what a scan has to say for a fault, and for the end of a
  sequence of commands.
* `Reader.Level.Follows` — a level agrees with the scan inside the open parentheses.
* `parse_eq_scan` — the ending of a text is the verdict of the scan.
-/

namespace Phrasebook

namespace Scan

variable {opened : List Position} {here : Position}

/-! ## Steps in normal mode -/

theorem step_escape : (normal opened here).step '\\'
    = .ok ⟨here.advance '\\', opened, .normal, some here⟩ := rfl

theorem step_fillerOpen :
    (normal opened here).step '(' = .ok (normal (here :: opened) (here.advance '(')) := rfl

theorem step_fillerClose {opening : Position} :
    (normal (opening :: opened) here).step ')' = .ok (normal opened (here.advance ')')) := rfl

theorem step_stringOpen : (normal opened here).step '{'
    = .ok ⟨here.advance '{', opened, .string here 0, none⟩ := rfl

theorem step_stringClose :
    (normal opened here).step '}' = .error ⟨.unexpectedStringClosure, here, []⟩ := rfl

theorem step_comment : (normal opened here).step '|'
    = .ok ⟨here.advance '|', opened, .comment, none⟩ := rfl

/-- White space, semicolons and the plain characters of words leave the state as it is. -/
theorem step_other {c : Char}
    (hm : Mark.of c = .plain ∨ Mark.of c = .blank ∨ Mark.of c = .terminator) :
    (normal opened here).step c = .ok (normal opened (here.advance c)) := by
  -- None of the six characters that change the state has one of these marks.
  have hne : ∀ mark d, mark.char? = some d → mark ≠ Mark.of c → c ≠ d := by
    rintro mark d hd hne rfl
    exact hne ((Mark.of_eq_iff hd).2 rfl).symm
  have hs : c ≠ '\\' ∧ c ≠ '(' ∧ c ≠ ')' ∧ c ≠ '{' ∧ c ≠ '}' ∧ c ≠ '|' := by
    refine ⟨hne .escape _ rfl ?_, hne .fillerOpen _ rfl ?_, hne .fillerClose _ rfl ?_,
      hne .stringOpen _ rfl ?_, hne .stringClose _ rfl ?_, hne .comment _ rfl ?_⟩
    all_goals rcases hm with hm | hm | hm <;> rw [hm] <;> nofun
  simp [step, normal, stepNormal, hs]

theorem step_escaped {mode : Mode} {backslash : Position} (c : Char) :
    (Scan.mk here opened mode (some backslash)).step c
      = .ok ⟨here.advance c, opened, mode, none⟩ := rfl

theorem reaches_escaped (c : Char) (rest : Text) :
    Reaches (normal opened here) ('\\' :: c :: rest)
      (normal opened ((here.advance '\\').advance c)) rest :=
  .step step_escape (.single (step_escaped c) rest)

theorem verdict_escape_nil :
    (normal opened here).verdict ['\\'] = .fatal ⟨.escapeAtEndOfInput, here, []⟩ := rfl

/-- A comment is passed over up to the end of its line. -/
theorem reaches_comment (opened : List Position) {comment : Text} (hc : '\n' ∉ comment)
    (here : Position) (rest : Text) :
    Reaches ⟨here, opened, .comment, none⟩ (comment ++ rest)
      ⟨here.advanceOver comment, opened, .comment, none⟩ rest := by
  induction comment generalizing here with
  | nil => exact .refl
  | cons c comment ih =>
    obtain ⟨hne, hrest⟩ := not_or.1 (mt List.mem_cons.2 hc)
    refine .step ?_ (ih hrest _)
    simp [step, stepComment, Ne.symm hne]

theorem step_lineFeed :
    (Scan.mk here opened .comment none).step '\n' = .ok (normal opened (here.advance '\n')) := rfl

/-- Before a line feed and before the end of the text a comment makes no difference. -/
theorem verdict_comment {text : Text} (hline : ∀ c ∈ text.head?, c = '\n') :
    (Scan.mk here opened .comment none).verdict text = (normal opened here).verdict text := by
  cases text with
  | nil => cases opened <;> rfl
  | cons c text =>
    obtain rfl := hline c rfl
    have hnormal : (normal opened here).step '\n' = .ok (normal opened (here.advance '\n')) :=
      step_other (.inr (.inr rfl))
    rw [verdict, run_cons_of_ok step_lineFeed, verdict, run_cons_of_ok hnormal]

theorem reaches_of_normal {text rest : Text} {last : Scan} (hline : ∀ c ∈ text.head?, c = '\n')
    (h : Reaches (normal opened here) text last rest) :
    last = normal opened here ∧ rest = text
      ∨ Reaches ⟨here, opened, .comment, none⟩ text last rest := by
  cases h with
  | refl => exact .inl ⟨rfl, rfl⟩
  | @step _ next _ c text rest hs hr =>
    obtain rfl := hline c rfl
    cases hs
    exact .inr (.step step_lineFeed hr)

/-- In a string most characters mean nothing. -/
theorem step_inString {opening : Position} {nesting : Nat} {c : Char}
    (he : Mark.of c ≠ .escape) (ho : Mark.of c ≠ .stringOpen) (hc : Mark.of c ≠ .stringClose) :
    (Scan.mk here opened (.string opening nesting) none).step c
      = .ok ⟨here.advance c, opened, .string opening nesting, none⟩ := by
  have hs : c ≠ '\\' ∧ c ≠ '{' ∧ c ≠ '}' :=
    ⟨mt (Mark.of_eq_iff rfl).2 he, mt (Mark.of_eq_iff rfl).2 ho, mt (Mark.of_eq_iff rfl).2 hc⟩
  simp [step, stepString, hs]

/-! ## What a scan says -/

/-- What is said about a text that ends outside strings, with those parentheses open. -/
def openEnding (opened : List Position) : Ending := (normal opened .start).ending

end Scan

section

variable [CallStack]

/-- The scan bears the fault out: it has the same verdict, or comes to the limit of depth. -/
def ParseFault.Follows (scan : Scan) (text : Text) : ParseFault → Prop
  | .malformed e => scan.verdict text = .ofError e
  | .tooDeep => ∃ deep rest, Scan.Reaches scan text deep rest ∧ nestingLimit ≤ deep.opened.length

theorem ParseFault.Follows.of_reaches {scan next : Scan} {text rest : Text} {fault : ParseFault}
    (hr : Scan.Reaches scan text next rest) (h : fault.Follows next rest) :
    fault.Follows scan text := by
  cases fault with
  | malformed e => exact hr.verdict_eq.trans h
  | tooDeep =>
    obtain ⟨deep, left, hd, hl⟩ := h
    exact ⟨deep, left, hr.trans hd, hl⟩

namespace Reader

open Scan (normal Reaches)

/-- The scan comes to where a reading function stops, or bears out why it fails. -/
def Step.Follows {α : Type} (opened : List Position) (scan : Scan) (text : Text) :
    Step α → Prop
  | .ok (_, after) => Reaches scan text (normal opened after.position) after.rest
  | .error fault => fault.Follows scan text

/-- The same for sequences of commands inside the open parentheses `opened`. -/
def Stop.Follows (opened : List Position) (scan : Scan) (text : Text) : Stop → Prop
  | .endOfText => scan.verdict text = Scan.openEnding opened
  | .closing stop =>
    Reaches scan text (normal opened stop.position) stop.rest ∧ mark? stop = some .fillerClose
  | .failed fault => fault.Follows scan text

variable {α : Type} {opened : List Position} {scan next : Scan} {text rest : Text}

theorem Step.Follows.of_reaches {step : Step α} (hr : Reaches scan text next rest)
    (h : step.Follows opened next rest) : step.Follows opened scan text := by
  match step with
  | .ok (_, _) => exact hr.trans h
  | .error _ => exact ParseFault.Follows.of_reaches hr h

theorem Step.Follows.cons {piece : α} {step : Step (List α)}
    (h : step.Follows opened scan text) : (step.cons piece).Follows opened scan text := by
  match step with
  | .ok (_, _) => exact h
  | .error _ => exact h

theorem Stop.Follows.of_reaches {stop : Stop} (hr : Reaches scan text next rest)
    (h : stop.Follows opened next rest) : stop.Follows opened scan text := by
  cases stop with
  | endOfText => exact hr.verdict_eq.trans h
  | closing stop => exact ⟨hr.trans h.1, h.2⟩
  | failed fault => exact ParseFault.Follows.of_reaches hr h

/-! ## Words and strings -/

theorem word_follows (opened : List Position) (here : Position) (text : Text) :
    (word here text).Follows opened (normal opened here) text := by
  fun_induction word here text with
  | case1 => exact .refl
  | case2 here c rest hm ih =>
    exact .of_reaches (.single (Scan.step_other (.inl hm)) rest) ih.cons
  | case3 here c hm =>
    obtain rfl := (Mark.of_eq_iff rfl).1 hm
    exact Scan.verdict_escape_nil
  | case4 here c d rest hm ih =>
    obtain rfl := (Mark.of_eq_iff rfl).1 hm
    exact .of_reaches (Scan.reaches_escaped d rest) ih.cons
  | case5 => exact .refl

theorem quoted_follows (opened : List Position) (opening : Position) (nesting : Nat)
    (here : Position) (text : Text) :
    (quoted opening nesting here text).Follows opened
      ⟨here, opened, .string opening nesting, none⟩ text := by
  fun_induction quoted opening nesting here text with
  | case1 => rfl
  | case2 nesting here c hm =>
    obtain rfl := (Mark.of_eq_iff rfl).1 hm
    rfl
  | case3 nesting here c d rest hm ih =>
    obtain rfl := (Mark.of_eq_iff rfl).1 hm
    exact .of_reaches (.step rfl (.single (Scan.step_escaped d) rest)) ih.cons.cons
  | case4 nesting here c rest hm ih =>
    obtain rfl := (Mark.of_eq_iff rfl).1 hm
    exact .of_reaches (.single rfl rest) ih.cons
  | case5 here c rest hm =>
    obtain rfl := (Mark.of_eq_iff rfl).1 hm
    exact .single rfl rest
  | case6 here c rest hm nesting ih =>
    obtain rfl := (Mark.of_eq_iff rfl).1 hm
    exact .of_reaches (.single rfl rest) ih.cons
  | case7 nesting here c rest hlast hescape hopen hclose ih =>
    have hne := ne_escape hlast hescape
    exact .of_reaches (.single (Scan.step_inString hne hopen hclose) rest) ih.cons

/-! ## Parts -/

/-- A level agrees with the scan inside the open parentheses, wherever it begins to read. -/
def Level.Follows (level : Level) (opened : List Position) : Prop :=
  ∀ here text, (level.read ⟨here, text⟩).stop.Follows opened (normal opened here) text

variable {level : Level}

theorem filler_follows (hl : ∀ opening, level.Follows (opening :: opened)) (here : Position)
    (text : Text) :
    (filler level ⟨here, '(' :: text⟩).Follows opened (normal opened here) ('(' :: text) := by
  have hopen : Reaches (normal opened here) ('(' :: text)
      (normal (here :: opened) (here.advance '(')) text := .single Scan.step_fillerOpen text
  have hinside := hl here (here.advance '(') text
  rw [filler, Cursor.next_mk_cons]
  generalize level.read ⟨here.advance '(', text⟩ = reading at hinside
  obtain ⟨content, stop⟩ := reading
  cases stop with
  -- The text ends inside this filler, which is the innermost one that is open.
  | endOfText => exact hopen.verdict_eq.trans hinside
  | failed fault => exact ParseFault.Follows.of_reaches hopen hinside
  | closing stop =>
    obtain ⟨hr, hm⟩ := hinside
    obtain ⟨position, left⟩ := stop
    obtain ⟨c, rest, rfl, hc⟩ := rest_eq_of_mark? hm
    obtain rfl := (Mark.of_eq_iff rfl).1 hc
    exact (hopen.trans hr).trans (.single Scan.step_fillerClose rest)

theorem string_follows (here : Position) (text : Text) :
    (string ⟨here, '{' :: text⟩).Follows opened (normal opened here) ('{' :: text) := by
  have hinside := (quoted_follows opened here 0 (here.advance '{') text).of_reaches
    (.single Scan.step_stringOpen text)
  rw [string, Cursor.next_mk_cons]
  cases hq : quoted here 0 (here.advance '{') text with
  | ok read =>
    rw [hq] at hinside
    exact hinside
  | error fault =>
    rw [hq] at hinside
    exact hinside

theorem bareWord_follows (here : Position) (text : Text) :
    (bareWord ⟨here, text⟩).Follows opened (normal opened here) text := by
  have hword := word_follows opened here text
  rw [bareWord]
  cases hq : word here text with
  | ok read =>
    rw [hq] at hword
    exact hword
  | error fault =>
    rw [hq] at hword
    exact hword

theorem part_follows (hl : ∀ opening, level.Follows (opening :: opened)) {here : Position}
    {text : Text} {step : Step Part} (h : part level ⟨here, text⟩ = some step) :
    step.Follows opened (normal opened here) text := by
  cases text with
  | nil => cases h
  | cons c text =>
    rw [part, mark?_cons] at h
    cases hm : Mark.of c with
    | fillerOpen =>
      obtain rfl := (Mark.of_eq_iff rfl).1 hm
      rw [hm] at h
      exact Option.some.inj h ▸ filler_follows hl here text
    | stringOpen =>
      obtain rfl := (Mark.of_eq_iff rfl).1 hm
      rw [hm] at h
      exact Option.some.inj h ▸ string_follows here text
    | plain | escape =>
      rw [hm] at h
      exact Option.some.inj h ▸ bareWord_follows here (c :: text)
    | _ =>
      rw [hm] at h
      cases h

/-! ## Commands -/

theorem moreParts_follows (hl : ∀ opening, level.Follows (opening :: opened)) (cursor : Cursor) :
    (moreParts level cursor).Follows opened (normal opened cursor.position) cursor.rest := by
  fun_induction moreParts level cursor with
  | case1 cursor read after hp ih =>
    have hpart := part_follows hl hp
    exact (ih.of_reaches hpart).cons
  | case2 cursor fault hp => exact part_follows hl hp
  | case3 cursor hp hm ih =>
    obtain ⟨here, text⟩ := cursor
    obtain ⟨c, rest, rfl, hc⟩ := rest_eq_of_mark? hm
    exact ih.of_reaches (.single (Scan.step_other (.inr (.inl hc))) rest)
  | case4 cursor hp hm =>
    obtain ⟨here, text⟩ := cursor
    obtain ⟨c, rest, rfl, hc⟩ := rest_eq_of_mark? hm
    exact .single (Scan.step_other (.inr (.inr hc))) rest
  | case5 cursor hp hm =>
    obtain ⟨here, text⟩ := cursor
    obtain ⟨c, rest, rfl, hc⟩ := rest_eq_of_mark? hm
    obtain rfl := (Mark.of_eq_iff rfl).1 hc
    exact Scan.verdict_cons_of_error Scan.step_stringClose rest
  | case6 cursor => exact .refl

theorem command_follows (hl : ∀ opening, level.Follows (opening :: opened)) {cursor : Cursor}
    {step : Step Command} (h : command level cursor = some step) :
    step.Follows opened (normal opened cursor.position) cursor.rest := by
  rw [command] at h
  split at h
  · next first after hp =>
    have hparts := (moreParts_follows hl after).of_reaches (part_follows hl hp)
    split at h
    · next parts stop hs =>
      cases h
      rw [hs] at hparts
      exact hparts
    · next fault hs =>
      cases h
      rw [hs] at hparts
      exact hparts
  · next fault hp =>
    cases h
    exact part_follows hl hp
  · cases h

/-! ## Programs -/

/-- A scan that is in a comment before a line feed, or before the end of the text, may as well be
    in normal mode. -/
theorem Stop.Follows.of_normal {here : Position} {stop : Stop}
    (hline : ∀ c ∈ text.head?, c = '\n') (h : stop.Follows opened (normal opened here) text) :
    stop.Follows opened ⟨here, opened, .comment, none⟩ text := by
  cases stop with
  | endOfText => exact (Scan.verdict_comment hline).trans h
  | closing stop =>
    obtain ⟨hr, hm⟩ := h
    obtain ⟨-, heq⟩ | hr := Scan.reaches_of_normal hline hr
    · -- A closing parenthesis is no line feed, so the scan has moved on to it.
      obtain ⟨c, rest, hrest, hc⟩ := rest_eq_of_mark? hm
      obtain rfl := hline c (by rw [← heq, hrest]; rfl)
      cases hc
    · exact ⟨hr, hm⟩
  | failed fault =>
    cases fault with
    | malformed e => exact (Scan.verdict_comment hline).trans h
    | tooDeep =>
      obtain ⟨deep, rest, hr, hd⟩ := h
      obtain ⟨rfl, -⟩ | hr := Scan.reaches_of_normal hline hr
      · exact ⟨_, _, .refl, hd⟩
      · exact ⟨deep, rest, hr, hd⟩

theorem program_follows (hl : ∀ opening, level.Follows (opening :: opened)) (cursor : Cursor) :
    (program level cursor).stop.Follows opened (normal opened cursor.position) cursor.rest := by
  fun_induction program level cursor with
  | case1 cursor read after hc ih => exact ih.of_reaches (command_follows hl hc)
  | case2 cursor fault hc => exact command_follows hl hc
  | case3 cursor hc hm =>
    obtain ⟨here, text⟩ := cursor
    cases text with
    | nil => cases opened <;> rfl
    | cons c text => cases hm
  | case4 cursor hc hm => exact ⟨.refl, hm⟩
  | case5 cursor hc hm =>
    obtain ⟨here, text⟩ := cursor
    obtain ⟨c, rest, rfl, hmark⟩ := rest_eq_of_mark? hm
    obtain rfl := (Mark.of_eq_iff rfl).1 hmark
    exact Scan.verdict_cons_of_error Scan.step_stringClose rest
  | case6 cursor hc hm ih =>
    obtain ⟨here, text⟩ := cursor
    obtain ⟨c, rest, rfl, hmark⟩ := rest_eq_of_mark? hm
    obtain rfl := (Mark.of_eq_iff rfl).1 hmark
    obtain ⟨comment, ht, hcomment, hp, hline⟩ := skipComment_split here rest
    -- The reader goes on behind the comment in normal mode, the scan is in its comment still.
    have hbehind := ih.of_normal hline
    rw [hp] at hbehind
    have hthrough := Scan.reaches_comment opened hcomment (here.advance '|')
      (skipComment ⟨here, '|' :: rest⟩).rest
    rw [← ht] at hthrough
    exact hbehind.of_reaches (.step Scan.step_comment hthrough)
  | case7 cursor hc mark hclose hstring hcomment hm ih =>
    obtain ⟨here, text⟩ := cursor
    obtain ⟨c, rest, rfl, rfl⟩ := rest_eq_of_mark? hm
    have hskip := skips_of_command_eq_none hc hm hclose hstring hcomment
    exact ih.of_reaches (.single (Scan.step_other (.inr hskip)) rest)

theorem atLevel_follows : ∀ (n : Nat) (opened : List Position),
    opened.length + n = nestingLimit → (atLevel n).Follows opened
  -- As many parentheses are open as the limit allows.
  | 0, opened, h => by
    intro here text
    exact ⟨_, _, .refl, Nat.le_of_eq h.symm⟩
  | n + 1, opened, h => by
    intro here text
    rw [atLevel_succ_read]
    exact program_follows (fun opening => atLevel_follows n (opening :: opened)
      (by rw [List.length_cons]; omega)) ⟨here, text⟩

end Reader

/-! ## Whole texts -/

/-- As long as the open parentheses stay below the limit, a text is read, and its ending is the
    verdict of the scan. -/
theorem parse_eq_scan (text : Text)
    (h : ∀ scan rest, Scan.Reaches .start text scan rest → scan.opened.length < nestingLimit) :
    ∃ program, parse text = .ok ⟨program, Scan.start.verdict text⟩ := by
  have hread : ((Reader.atLevel nestingLimit).read (.atStart text)).stop.Follows [] .start text :=
    Reader.atLevel_follows nestingLimit [] (Nat.zero_add _) .start text
  rw [parse, parseWithin]
  generalize (Reader.atLevel nestingLimit).read (.atStart text) = reading at hread ⊢
  obtain ⟨commands, stop⟩ := reading
  cases stop with
  | endOfText => exact ⟨commands, by rw [hread]; rfl⟩
  | closing stop =>
    -- The reader stops before a parenthesis that closes nothing, and there the scan fails.
    obtain ⟨hr, hm⟩ := hread
    obtain ⟨here, left⟩ := stop
    obtain ⟨c, rest, rfl, hc⟩ := Reader.rest_eq_of_mark? hm
    obtain rfl := (Mark.of_eq_iff rfl).1 hc
    have hverdict : Scan.start.verdict text = .fatal ⟨.unexpectedFillerClosure, here, []⟩ :=
      hr.verdict_eq.trans (Scan.verdict_cons_of_error rfl rest)
    exact ⟨commands, by rw [hverdict]; rfl⟩
  | failed fault =>
    cases fault with
    | malformed e => exact ⟨commands, by rw [hread]⟩
    | tooDeep =>
      -- The scan would have come to the limit.
      obtain ⟨deep, rest, hr, hd⟩ := hread
      exact absurd (h deep rest hr) (Nat.not_lt.2 hd)

end

open StandardStack

theorem parse_eq_scan_of_unclosed :
    let text : Text := ['a', '(', '|', ')', '\n', '{', '{', '\\', '}', '}', '(', '\\', ')']
    (∀ scan rest, Scan.Reaches .start text scan rest → scan.opened.length < nestingLimit)
      ∧ Scan.start.verdict text = .needsMore ⟨.unclosedString, ⟨5, 2, 0⟩, []⟩
      ∧ ∃ program, parse text = .ok ⟨program, Scan.start.verdict text⟩ := by
  intro text
  have hdepth : ∀ scan rest, Scan.Reaches .start text scan rest →
      scan.opened.length < nestingLimit := by
    intro scan rest hr
    have hle := hr.opened_length_le
    have htext : Scan.start.opened.length + text.length < nestingLimit := by decide
    omega
  exact ⟨hdepth, by decide, parse_eq_scan text hdepth⟩

end Phrasebook
