import Phrasebook.Proofs.Grammar.Boundaries

/-! # What is read, the grammar derives

Whatever the reader gives back is spelled by the text that it took. The reader takes the white
space and the terminator behind a command together with the command, the grammar counts both to the
gap; `CommandEnd` is what the reader took too much, and `SpellsProgram.command` gives it back.

* `Reader.word_sound`, `Reader.quoted_sound`, `Reader.part_sound` — parts.
* `Reader.moreParts_sound`, `Reader.command_sound` — commands.
* `Reader.program_sound`, `Reader.atLevel_sound` — programs, level by level.
* `spells_of_parse` — whole texts.
-/

namespace Phrasebook

/-! ## What the reader takes with a command -/

/-- What the reader takes with the parts of a command, and what it leaves: white space and a
    terminator, or white space alone before a comment, a closing parenthesis or the end. -/
inductive CommandEnd : Text → Text → Prop where
  | terminated {blanks rest : Text} {c : Char} :
      Blanks blanks → Mark.of c = .terminator → CommandEnd (blanks ++ [c]) rest
  | unterminated {blanks rest : Text} :
      Blanks blanks → (∀ c ∈ rest.head?, Mark.of c = .comment ∨ Mark.of c = .fillerClose) →
      CommandEnd blanks rest

theorem CommandEnd.gap {taken rest gap : Text} (h : CommandEnd taken rest) (hg : Gap gap) :
    Gap (taken ++ gap) := by
  cases h with
  | terminated hb hc =>
    rw [List.append_assoc]
    exact hb.gap (.char (skipped_iff.2 (.inr hc)) hg)
  | unterminated hb _ => exact hb.gap hg

theorem CommandEnd.blanks {blanks taken rest : Text} (hb : Blanks blanks)
    (h : CommandEnd taken rest) : CommandEnd (blanks ++ taken) rest := by
  cases h with
  | terminated hmore hc =>
    rw [← List.append_assoc]
    exact .terminated (hb.append hmore) hc
  | unterminated hmore hr => exact .unterminated (hb.append hmore) hr

/-- Before a command that follows, what the reader took is part of a separator: a comment, the
    only other thing that may come next, has its own line feed. -/
theorem CommandEnd.separator {taken before spelling rest : Text} {commands : List Command}
    (h : CommandEnd taken (before ++ (spelling ++ rest))) (hb : Gap before)
    (hs : SpellsCommands spelling commands) : Separator (taken ++ before) := by
  cases h with
  | terminated hblanks hc =>
    rw [List.append_assoc]
    exact hblanks.separator (.terminator (Mark.of_eq_terminator.1 hc).symm hb)
  | unterminated hblanks hr =>
    refine hblanks.separator ?_
    cases hb with
    | nil =>
      -- The command would begin where the reader found a comment or a parenthesis.
      obtain ⟨c, tail, rfl, ho⟩ := hs.opens
      rcases hr c rfl with hm | hm <;> rw [hm] at ho <;> cases ho
    | @char c gap hc hg =>
      -- Nor is what it found white space or a semicolon.
      rcases skipped_iff.1 hc with hm | hm <;> rcases hr c rfl with hm' | hm' <;>
        rw [hm] at hm' <;> cases hm'
    | comment hc hg => exact .comment hc hg

/-- A command in front of a program, with what the reader took between the two. -/
theorem SpellsProgram.command {spelling taken text rest : Text} {parts : List Part}
    {commands : List Command} (hp : SpellsParts spelling parts) (at? : Option Position)
    (he : CommandEnd taken (text ++ rest)) (h : SpellsProgram text commands) :
    SpellsProgram (spelling ++ (taken ++ text)) (.mk parts at? :: commands) := by
  cases h with
  | empty hg => exact @SpellsProgram.commands [] _ _ _ .nil (.last at? hp) (he.gap hg)
  | @commands before body after commands hb hs ha =>
    cases commands with
    | nil => cases hs
    | cons next commands =>
      -- With a command behind it, the gap between the two has to be a separator.
      rw [List.append_assoc, List.append_assoc] at he
      have hsep := he.separator hb hs
      have hall := SpellsProgram.commands .nil (.more at? hp hsep hs) ha
      simpa only [List.nil_append, List.append_assoc] using hall

namespace Reader

/-! ## Words and strings -/

theorem word_sound {here : Position} {text read : Text} {after : Cursor}
    (h : word here text = .ok (read, after)) :
    ∃ spelling, text = spelling ++ after.rest ∧ SpellsWord spelling read ∧ EndsWord after.rest := by
  fun_induction word here text generalizing read with
  | case1 here =>
    cases h
    exact ⟨[], rfl, .nil, .nil⟩
  | case2 here c rest hm ih =>
    obtain ⟨_, hr, rfl⟩ := Step.cons_eq_ok h
    obtain ⟨spelling, rfl, hs, he⟩ := ih hr
    exact ⟨c :: spelling, rfl, .bare (isBare_iff.2 hm) hs, he⟩
  | case3 => cases h
  | case4 here c d rest hm ih =>
    obtain ⟨_, hr, rfl⟩ := Step.cons_eq_ok h
    obtain ⟨spelling, rfl, hs, he⟩ := ih hr
    obtain rfl := (Mark.of_eq_iff rfl).1 hm
    exact ⟨'\\' :: d :: spelling, rfl, .escaped d hs, he⟩
  | case5 here c rest hplain hlast hescape =>
    cases h
    refine ⟨[], rfl, .nil, ?_⟩
    intro d hd
    obtain rfl : c = d := by simpa using hd
    -- The word stopped here, so the character is none of the two kinds that words go on with.
    have hne := ne_escape hlast hescape
    cases hm : Mark.of c with
    | plain => exact (hplain hm).elim
    | escape => exact absurd hm hne
    | _ => rfl

/-- A string is read up to the brace that closes it, and leaves no other brace open. -/
theorem quoted_sound {opening here : Position} {nesting : Nat} {text read : Text} {after : Cursor}
    (h : quoted opening nesting here text = .ok (read, after)) :
    text = read ++ '}' :: after.rest ∧ read.openBraces nesting = some 0 := by
  fun_induction quoted opening nesting here text generalizing read with
  | case1 => cases h
  | case2 => cases h
  | case3 nesting here c d rest hm ih =>
    obtain ⟨_, hc, rfl⟩ := Step.cons_eq_ok h
    obtain ⟨_, hr, rfl⟩ := Step.cons_eq_ok hc
    obtain ⟨rfl, hb⟩ := ih hr
    obtain rfl := (Mark.of_eq_iff rfl).1 hm
    exact ⟨rfl, by simpa using hb⟩
  | case4 nesting here c rest hm ih =>
    obtain ⟨_, hr, rfl⟩ := Step.cons_eq_ok h
    obtain ⟨rfl, hb⟩ := ih hr
    obtain rfl := (Mark.of_eq_iff rfl).1 hm
    exact ⟨rfl, by simpa using hb⟩
  | case5 here c rest hm =>
    cases h
    obtain rfl := (Mark.of_eq_iff rfl).1 hm
    exact ⟨rfl, rfl⟩
  | case6 here c rest hm nesting ih =>
    obtain ⟨_, hr, rfl⟩ := Step.cons_eq_ok h
    obtain ⟨rfl, hb⟩ := ih hr
    obtain rfl := (Mark.of_eq_iff rfl).1 hm
    exact ⟨rfl, by simpa using hb⟩
  | case7 nesting here c rest hlast hescape hopen hclose ih =>
    have hne := ne_escape hlast hescape
    obtain ⟨_, hr, rfl⟩ := Step.cons_eq_ok h
    obtain ⟨rfl, hb⟩ := ih hr
    refine ⟨rfl, ?_⟩
    rw [Text.openBraces_cons (mt (Mark.of_eq_iff rfl).2 hne) (mt (Mark.of_eq_iff rfl).2 hopen)
      (mt (Mark.of_eq_iff rfl).2 hclose)]
    exact hb

/-! ## Parts -/

/-- A reader for the insides of fillers whose programs the text spells, and nest less than `n`
    deep. -/
def Level.Sound (level : Level) (n : Nat) : Prop :=
  ∀ (cursor : Cursor) (content : Program) (stop : Cursor),
    level.read cursor = ⟨content, .closing stop⟩ →
    ∃ spelling rest, cursor.rest = spelling ++ stop.rest ∧ stop.rest = ')' :: rest
      ∧ SpellsProgram spelling content ∧ Program.nesting content < n

variable {level : Level} {n : Nat}

theorem filler_sound (hl : level.Sound n) {here : Position} {text : Text} {read : Part}
    {after : Cursor} (h : filler level ⟨here, '(' :: text⟩ = .ok (read, after)) :
    ∃ spelling, '(' :: text = spelling ++ after.rest ∧ SpellsPart spelling read
      ∧ read.isWord = false ∧ read.nesting ≤ n := by
  rw [filler] at h
  split at h
  · next content stop hr =>
    obtain ⟨spelling, rest, ht, hs, hp, hn⟩ := hl _ _ _ hr
    obtain ⟨position, left⟩ := stop
    obtain rfl : left = ')' :: rest := hs
    obtain rfl : text = spelling ++ ')' :: rest := ht
    cases h
    refine ⟨'(' :: spelling ++ [')'], by simp, .filler _ hp, rfl, ?_⟩
    simp only [Part.nesting]
    omega
  · cases h
  · cases h

theorem string_sound {here : Position} {text : Text} {read : Part} {after : Cursor}
    (h : string ⟨here, '{' :: text⟩ = .ok (read, after)) :
    ∃ spelling, '{' :: text = spelling ++ after.rest ∧ SpellsPart spelling read
      ∧ read.isWord = false ∧ read.nesting = 0 := by
  rw [string] at h
  split at h
  · next content stop hr =>
    obtain ⟨ht, hb⟩ := quoted_sound hr
    obtain rfl : text = content ++ '}' :: stop.rest := ht
    cases h
    exact ⟨content.braced, by simp [Text.braced], .string _ hb, rfl, rfl⟩
  · cases h

theorem bareWord_sound {here : Position} {c : Char} {text : Text} {read : Part} {after : Cursor}
    (hc : (Mark.of c).inWord = true) (h : bareWord ⟨here, c :: text⟩ = .ok (read, after)) :
    ∃ spelling, c :: text = spelling ++ after.rest ∧ SpellsPart spelling read
      ∧ EndsWord after.rest ∧ read.nesting = 0 := by
  rw [bareWord] at h
  split at h
  · next content stop hr =>
    obtain ⟨spelling, ht, hs, he⟩ := word_sound hr
    cases h
    refine ⟨spelling, ht, .word _ hs ?_, he, rfl⟩
    rintro rfl
    -- An empty word would leave the character that it begins with.
    cases hs
    have hend := he c (by rw [← List.nil_append after.rest, ← ht]; rfl)
    rw [hc] at hend
    cases hend
  · cases h

theorem part_sound (hl : level.Sound n) {cursor after : Cursor} {read : Part}
    (h : part level cursor = some (.ok (read, after))) :
    ∃ spelling, cursor.rest = spelling ++ after.rest ∧ SpellsPart spelling read
      ∧ (read.isWord = true → EndsWord after.rest) ∧ read.nesting ≤ n := by
  obtain ⟨here, text⟩ := cursor
  cases text with
  | nil => cases h
  | cons c text =>
    rw [part, mark?_cons] at h
    cases hm : Mark.of c with
    | fillerOpen =>
      obtain rfl := (Mark.of_eq_iff rfl).1 hm
      rw [hm] at h
      obtain ⟨spelling, ht, hs, hw, hn⟩ := filler_sound hl (Option.some.inj h)
      exact ⟨spelling, ht, hs, by simp [hw], hn⟩
    | stringOpen =>
      obtain rfl := (Mark.of_eq_iff rfl).1 hm
      rw [hm] at h
      obtain ⟨spelling, ht, hs, hw, hn⟩ := string_sound (Option.some.inj h)
      exact ⟨spelling, ht, hs, by simp [hw], by omega⟩
    | plain | escape =>
      rw [hm] at h
      obtain ⟨spelling, ht, hs, he, hn⟩ := bareWord_sound (by rw [hm]; rfl) (Option.some.inj h)
      exact ⟨spelling, ht, hs, fun _ => he, by omega⟩
    | _ =>
      rw [hm] at h
      cases h

/-! ## Commands -/

/-- A command that meets neither a part nor one of the marks it goes on with has ended. -/
theorem unterminated_of_mark_ne {c : Char} (ho : (Mark.of c).opensPart = false)
    (hblank : Mark.of c ≠ .blank) (hterminator : Mark.of c ≠ .terminator)
    (hclose : Mark.of c ≠ .stringClose) : Mark.of c = .comment ∨ Mark.of c = .fillerClose := by
  cases hm : Mark.of c with
  | comment => exact .inl rfl
  | fillerClose => exact .inr rfl
  | blank => exact absurd hm hblank
  | terminator => exact absurd hm hterminator
  | stringClose => exact absurd hm hclose
  | _ =>
    rw [hm] at ho
    cases ho

theorem moreParts_sound (hl : level.Sound n) {cursor after : Cursor} {read : List Part}
    (h : moreParts level cursor = .ok (read, after)) :
    ∃ blanks spelling taken, cursor.rest = blanks ++ (spelling ++ (taken ++ after.rest))
      ∧ Blanks blanks ∧ CommandEnd taken after.rest
      ∧ (read = [] ∧ spelling = [] ∨ SpellsParts spelling read) ∧ Part.nestingAll read ≤ n := by
  fun_induction moreParts level cursor generalizing read with
  | case1 cursor first behind hp ih =>
    obtain ⟨others, hr, rfl⟩ := Step.cons_eq_ok h
    obtain ⟨spelling, ht, hs, he, hn⟩ := part_sound hl hp
    obtain ⟨blanks, more, taken, htail, hb, hend, hmore, hns⟩ := ih hr
    -- If this part is the last one, the white space behind it belongs to the end of the command;
    -- otherwise it divides the part from the next.
    have hnest : Part.nestingAll (first :: others) ≤ n := Nat.max_le.2 ⟨hn, hns⟩
    rcases hmore with ⟨rfl, rfl⟩ | hmore
    · refine ⟨[], spelling, blanks ++ taken, ?_, .nil, hend.blanks hb, .inr (.last hs), hnest⟩
      rw [ht, htail]
      simp
    · cases others with
      | nil => cases hmore
      | cons next others =>
        refine ⟨[], spelling ++ (blanks ++ more), taken, ?_, .nil, hend,
          .inr (.more hs hb ?_ hmore), hnest⟩
        · rw [ht, htail]
          simp
        · rintro hword hnext rfl
          -- The first word ended, so the next one cannot begin right behind it.
          obtain ⟨c, rest, rfl, _, hc⟩ := hmore.head
          have hends := he hword c (by rw [htail]; rfl)
          rw [hc, hnext] at hends
          cases hends
  | case2 => cases h
  | case3 cursor hp hm ih =>
    obtain ⟨c, rest, hc, hmark⟩ := rest_eq_of_mark? hm
    obtain ⟨blanks, spelling, taken, htail, hb, hend, hmore, hns⟩ := ih h
    refine ⟨c :: blanks, spelling, taken, ?_, ?_, hend, hmore, hns⟩
    · rw [Cursor.next_rest_of_cons hc] at htail
      rw [hc, htail]
      rfl
    · exact List.forall_mem_cons.2 ⟨Mark.of_eq_blank.1 hmark, hb⟩
  | case4 cursor hp hm =>
    obtain ⟨c, rest, hc, hmark⟩ := rest_eq_of_mark? hm
    cases h
    have hend : CommandEnd [c] cursor.next.rest := @CommandEnd.terminated [] _ _ .nil hmark
    refine ⟨[], [], [c], ?_, .nil, hend, .inl ⟨rfl, rfl⟩, Nat.zero_le n⟩
    rw [hc, Cursor.next_rest_of_cons hc]
    rfl
  | case5 => cases h
  | case6 cursor hp hblank hterminator hclose =>
    obtain ⟨here, text⟩ := cursor
    cases h
    refine ⟨[], [], [], rfl, .nil, .unterminated .nil ?_, .inl ⟨rfl, rfl⟩, Nat.zero_le n⟩
    intro c hc
    obtain ⟨rest, rfl⟩ := List.head?_eq_some_iff.1 hc
    exact unterminated_of_mark_ne (part_eq_none_iff.1 hp) (fun hm => hblank (congrArg some hm))
      (fun hm => hterminator (congrArg some hm)) (fun hm => hclose (congrArg some hm))

theorem command_sound (hl : level.Sound n) {cursor after : Cursor} {read : Command}
    (h : command level cursor = some (.ok (read, after))) :
    ∃ spelling taken parts at?, read = .mk parts at?
      ∧ cursor.rest = spelling ++ (taken ++ after.rest)
      ∧ SpellsParts spelling parts ∧ CommandEnd taken after.rest ∧ Part.nestingAll parts ≤ n := by
  obtain ⟨here, text⟩ := cursor
  rw [command] at h
  split at h
  · next first behind hp =>
    split at h
    · next parts stop hs =>
      have hall : moreParts level ⟨here, text⟩ = .ok (first :: parts, stop) := by
        rw [moreParts_of_part_eq_some hp, hs]
        rfl
      obtain ⟨blanks, spelling, taken, ht, hb, he, hsp, hn⟩ := moreParts_sound hl hall
      replace hsp : SpellsParts spelling (first :: parts) := hsp.resolve_left (by simp)
      -- No white space stands before the first part, or it would not have been read there.
      cases blanks with
      | nil =>
        cases h
        exact ⟨spelling, taken, _, _, rfl, ht, hsp, he, hn⟩
      | cons c blanks =>
        obtain rfl : text = c :: (blanks ++ (spelling ++ (taken ++ stop.rest))) := ht
        have hm := Mark.of_eq_blank.2 (hb c List.mem_cons_self)
        rw [part_eq_none hm rfl] at hp
        cases hp
    · cases h
  · cases h
  · cases h

/-! ## Programs -/

/-- What a program leaves of the text: at the end nothing or a comment without its line feed, in a
    filler the closing parenthesis and what is behind it. -/
inductive Leaves : Stop → Text → Prop where
  | nothing : Leaves .endOfText []
  | comment {comment : Text} : '\n' ∉ comment → Leaves .endOfText ('|' :: comment)
  | closing {behind : Cursor} {rest : Text} :
      behind.rest = ')' :: rest → Leaves (.closing behind) behind.rest

/-- A comment in front of a program is part of its first gap if the program has a line feed to end
    it. If nothing is behind the comment, it is what the program leaves. -/
theorem Leaves.behind_comment {stop : Stop} {comment spelling left : Text}
    {commands : List Command} (hleft : Leaves stop left) (hc : '\n' ∉ comment)
    (hline : ∀ c ∈ (spelling ++ left).head?, c = '\n') (hs : SpellsProgram spelling commands) :
    ∃ spelling' left', '|' :: (comment ++ (spelling ++ left)) = spelling' ++ left'
      ∧ SpellsProgram spelling' commands ∧ Leaves stop left' := by
  cases spelling with
  | nil =>
    cases hleft with
    | nothing =>
      refine ⟨[], '|' :: comment, ?_, hs, .comment hc⟩
      simp
    | comment _ => exact absurd (hline '|' rfl) (by decide)
    | closing hr => exact absurd (hline ')' (by rw [hr]; rfl)) (by decide)
  | cons c spelling =>
    obtain rfl : c = '\n' := hline c rfl
    refine ⟨'|' :: comment ++ '\n' :: spelling, left, ?_, ?_, hleft⟩
    · simp
    · -- The line feed passes from the text that the program spells to the gap in front of it.
      have hgap := hs.of_lineFeed.gap (.comment hc .nil)
      simpa using hgap

theorem program_sound (hl : level.Sound n) (cursor : Cursor)
    (hs : ∀ fault, (program level cursor).stop ≠ .failed fault) :
    ∃ spelling left, cursor.rest = spelling ++ left
      ∧ SpellsProgram spelling (program level cursor).commands
      ∧ Leaves (program level cursor).stop left
      ∧ Program.nesting (program level cursor).commands ≤ n := by
  fun_induction program level cursor with
  | case1 cursor read after hc ih =>
    obtain ⟨spelling, taken, parts, at?, rfl, ht, hp, he, hn⟩ := command_sound hl hc
    -- What the command took too much goes to the gap in front of the other commands.
    obtain ⟨others, left, hrest, ho, hleft, hno⟩ := ih hs
    rw [hrest] at he ht
    refine ⟨spelling ++ (taken ++ others), left, ?_, ho.command hp at? he, hleft,
      Nat.max_le.2 ⟨hn, hno⟩⟩
    rw [ht]
    simp
  | case2 => exact absurd rfl (hs _)
  | case3 cursor hc hm =>
    obtain ⟨here, text⟩ := cursor
    cases text with
    | nil => exact ⟨[], [], rfl, .empty .nil, .nothing, Nat.zero_le n⟩
    | cons c text => cases hm
  | case4 cursor hc hm =>
    obtain ⟨c, rest, hr, hmark⟩ := rest_eq_of_mark? hm
    obtain rfl := (Mark.of_eq_iff rfl).1 hmark
    exact ⟨[], cursor.rest, rfl, .empty .nil, .closing hr, Nat.zero_le n⟩
  | case5 => exact absurd rfl (hs _)
  | case6 cursor hc hm ih =>
    obtain ⟨here, text⟩ := cursor
    obtain ⟨c, rest, rfl, hmark⟩ := rest_eq_of_mark? hm
    obtain rfl := (Mark.of_eq_iff rfl).1 hmark
    obtain ⟨spelling, left, hrest, ho, hleft, hno⟩ := ih hs
    obtain ⟨comment, ht, hcomment, -, hline⟩ := skipComment_split here rest
    rw [hrest] at ht hline
    obtain ⟨spelling', left', heq, ho', hleft'⟩ := hleft.behind_comment hcomment hline ho
    exact ⟨spelling', left', (congrArg ('|' :: ·) ht).trans heq, ho', hleft', hno⟩
  | case7 cursor hc mark hclose hstring hcomment hm ih =>
    obtain ⟨here, text⟩ := cursor
    obtain ⟨c, rest, rfl, rfl⟩ := rest_eq_of_mark? hm
    have hskip := skips_of_command_eq_none hc hm hclose hstring hcomment
    obtain ⟨spelling, left, hrest, ho, hleft, hno⟩ := ih hs
    exact ⟨c :: spelling, left, congrArg (c :: ·) hrest,
      ho.gap (.char (skipped_iff.2 hskip) .nil), hleft, hno⟩

/-! ## Levels -/

theorem atLevel_sound : ∀ n, (atLevel n).Sound n
  -- At level zero no filler is read at all.
  | 0 => by
    intro cursor content stop h
    cases h
  | n + 1 => by
    intro cursor content stop h
    rw [atLevel_succ_read] at h
    obtain ⟨spelling, left, ht, hs, hleft, hn⟩ :=
      program_sound (atLevel_sound n) cursor (by rw [h]; nofun)
    rw [h] at hs hleft hn
    cases hleft with
    | closing hr => exact ⟨spelling, _, ht, hr, hs, Nat.lt_succ_of_le hn⟩

end Reader

/-! ## Whole texts -/

/-- A text that is read to its end spells what is read, and nests less deep than the levels that it
    was read within. -/
theorem spells_of_parse {levels : Nat} {text : Text} {program : Program}
    (h : parseWithin levels text = .ok ⟨program, .clean⟩) :
    Spells text program ∧ Program.nesting program < levels := by
  have hl := levels_pos_of_parse h
  have hr := (parseWithin_eq_clean_iff hl).1 h
  obtain ⟨spelling, left, ht, hs, hleft, hn⟩ :=
    Reader.program_sound (Reader.atLevel_sound (levels - 1)) ⟨.start, text⟩
      (by rw [hr]; nofun)
  rw [hr] at hs hleft hn
  refine ⟨?_, Nat.lt_of_le_of_lt hn (Nat.sub_lt hl Nat.zero_lt_one)⟩
  obtain rfl : text = spelling ++ left := ht
  cases hleft with
  | nothing => simpa using Spells.program hs
  | comment hc => exact .comment hs hc

theorem parseProgramWithin_every {levels : Nat} {text : Text} {program : Program}
    (h : parseProgramWithin levels text = .ok program) : Program.Every Part.Spellable program :=
  (spells_of_parse (Parse.whole_eq_ok_iff.1 h)).1.every

theorem parseProgramWithin_wellFormed {levels : Nat} {text : Text} {program : Program}
    (h : parseProgramWithin levels text = .ok program) : Program.WellFormed program :=
  (spells_of_parse (Parse.whole_eq_ok_iff.1 h)).1.wellFormed

end Phrasebook
