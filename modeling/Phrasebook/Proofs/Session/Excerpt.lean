import Mathlib.Data.List.Forall2
import Phrasebook.Proofs.Scan.Culprit
import Phrasebook.Proofs.Text.Lines
import Phrasebook.Session.Basic

/-! # What excerpts show

Which lines of a source an excerpt shows, and what its caret stands under.

* `Excerpt.Shows` — a line of an excerpt and the line of the source that it shows.
* `Excerpt.Layout.PointsAt` — excerpts around a line, with the caret under a character of it.
* `Excerpt.exists_layout` — the excerpt around a place in a text points at the character there.
* `Session.run_points_at_culprit` — the report about a text that cannot be read points at the
  character that is to blame.
-/

namespace Phrasebook

namespace Excerpt

/-! ## Lines and layouts -/

/-- What stands in front of a line of the source: a mark, and the number of the line. -/
def lead (mark : Char) (padding number : Nat) : Text :=
  [mark, ' '] ++ List.replicate padding ' ' ++ Text.ofNat number ++ " | ".toList

/-- The line shows the line `number` of the source as it is, behind a lead that is `width`
    characters wide. Lines of the source count from one. -/
def Shows (source : Text) (width : Nat) (mark : Char) (number : Nat) (line : Text) : Prop :=
  ∃ padding content, line = lead mark padding number ++ content
    ∧ (lead mark padding number).length = width
    ∧ 1 ≤ number ∧ (List.splitOn '\n' source)[number - 1]? = some content

/-- The lines of an excerpt: one of them is marked, and has a caret below it. -/
structure Layout where
  width : Nat
  above : List Text
  marked : Text
  caret : Text
  below : List Text

def Layout.lines (layout : Layout) : List Text :=
  layout.above ++ layout.marked :: layout.caret :: layout.below

theorem Layout.lines_ne_nil (layout : Layout) : layout.lines ≠ [] := by
  simp [Layout.lines]

/-- The number of the first line in an excerpt around line `row`. -/
def firstNumber (row : Nat) : Nat := max 1 (row - 2)

/-- The number of the last line in an excerpt around line `row` of a source of `count` lines. -/
def lastNumber (count row : Nat) : Nat := min count (row + 2)

/-- The layout shows the lines of the source around line `row`, all of them in order and with leads
    of one width. Only line `row` is marked, and the caret below it stands under `culprit`, the
    character in its column `column`. Columns count from zero. -/
structure Layout.PointsAt (layout : Layout) (source : Text) (row column : Nat) (culprit : Char) :
    Prop where
  above : List.Forall₂ (Shows source layout.width ' ')
    (List.range' (firstNumber row) (row - firstNumber row)) layout.above
  marked : Shows source layout.width '>' row layout.marked
  caret : layout.caret = List.replicate (layout.width - 3) ' ' ++ " | ".toList
    ++ List.replicate column ' ' ++ ['^']
  place : layout.caret.idxOf '^' = layout.width + column
  culprit : layout.marked[layout.caret.idxOf '^']? = some culprit
  below : List.Forall₂ (Shows source layout.width ' ')
    (List.range' (row + 1) (lastNumber (List.splitOn '\n' source).length row - row)) layout.below

/-! ## Line feeds -/

theorem Shows.newline_not_mem {source line : Text} {width number : Nat} {mark : Char}
    (h : Shows source width mark number line) (hm : mark ≠ '\n') : '\n' ∉ line := by
  obtain ⟨padding, content, rfl, -, -, hcontent⟩ := h
  have hnumber : '\n' ∉ Text.ofNat number := Text.not_mem_ofNat rfl number
  have hcontent : '\n' ∉ content := Text.not_mem_of_mem_splitOn (List.mem_of_getElem? hcontent)
  simp [lead, hm.symm, hnumber, hcontent]

theorem newline_not_mem_of_shows {source : Text} {width : Nat} {numbers : List Nat}
    {lines : List Text} (h : List.Forall₂ (Shows source width ' ') numbers lines) :
    ∀ line ∈ lines, '\n' ∉ line := by
  induction h with
  | nil => nofun
  | cons hline _ ih => exact List.forall_mem_cons.2 ⟨hline.newline_not_mem (by decide), ih⟩

theorem Layout.PointsAt.newline_not_mem {layout : Layout} {source : Text} {row column : Nat}
    {culprit : Char} (h : layout.PointsAt source row column culprit) :
    ∀ line ∈ layout.lines, '\n' ∉ line := by
  have hcaret : '\n' ∉ layout.caret := by
    rw [h.caret]
    simp
  have hbelow := newline_not_mem_of_shows h.below
  have hmarked := h.marked.newline_not_mem (by decide)
  exact List.forall_mem_append.2 ⟨newline_not_mem_of_shows h.above,
    List.forall_mem_cons.2 ⟨hmarked, List.forall_mem_cons.2 ⟨hcaret, hbelow⟩⟩⟩

/-! ## The lines of an excerpt -/

/-- What an excerpt with the lines `first` to `last` has for a line of the source and its number. -/
def entry (first last row column : Nat) (line : Text × Nat) : List Text :=
  if first ≤ line.2 ∧ line.2 ≤ last then
    numbered (Text.ofNat last).length (line.2 == row) line.2 line.1
      :: (if line.2 = row then [caret (Text.ofNat last).length (column + 1)] else [])
  else []

/-- What an excerpt has for lines that are not to be marked. -/
def listing (first last : Nat) (lines : List (Text × Nat)) : List Text :=
  (lines.filter fun line => first ≤ line.2 ∧ line.2 ≤ last).map fun line =>
    numbered (Text.ofNat last).length false line.2 line.1

variable {source : Text} {first last row column : Nat} {all : List Text}

/-- The lines of an excerpt, found with natural numbers throughout. -/
theorem lines_eq_flatMap (hall : List.splitOn '\n' source = all) (hrow : 1 ≤ row)
    (hle : row ≤ all.length) :
    lines source row (some (column + 1)) excerptRadius
      = (all.zipIdx 1).flatMap
          (entry (firstNumber row) (lastNumber all.length row) row column) := by
  have hfirst : max 1 ((row : Int) - excerptRadius) = (firstNumber row : Int) := by
    simp only [excerptRadius, firstNumber]
    omega
  have hlast : min (all.length : Int) (row + excerptRadius)
      = (lastNumber all.length row : Int) := by
    simp only [excerptRadius, lastNumber]
    omega
  have hinside : ¬ ((row : Int) < 1 || (all.length : Int) < row) = true := by
    simp
    omega
  rw [lines, hall, if_neg hinside]
  simp only [hfirst, hlast]
  refine List.flatMap_congr fun line _ => ?_
  have hsame : ((line.2 : Int) == row) = (line.2 == row) := by
    rw [Bool.eq_iff_iff, beq_iff_eq, beq_iff_eq, Int.ofNat_inj]
  simp only [entry, hsame, Int.ofNat_le, Bool.and_eq_true, decide_eq_true_eq, beq_iff_eq,
    Option.map_some, Option.toList_some, Text.ofInt_natCast]

theorem flatMap_entry_eq_listing {lines : List (Text × Nat)} (h : ∀ line ∈ lines, line.2 ≠ row) :
    lines.flatMap (entry first last row column) = listing first last lines := by
  induction lines with
  | nil => rfl
  | cons line lines ih =>
    obtain ⟨hne, h⟩ := List.forall_mem_cons.1 h
    rw [List.flatMap_cons, ih h]
    have hmark : (line.2 == row) = false := beq_false_of_ne hne
    by_cases hin : first ≤ line.2 ∧ line.2 ≤ last <;> simp [entry, listing, hin, hne, hmark]

/-- The numeral of the last line is the widest, so the leads of all lines are of one width. -/
theorem numbered_eq (marked : Bool) {number : Nat} (hle : number ≤ last) (content : Text) :
    ∃ padding, numbered (Text.ofNat last).length marked number content
        = lead (if marked then '>' else ' ') padding number ++ content
      ∧ (lead (if marked then '>' else ' ') padding number).length
        = (Text.ofNat last).length + 5 := by
  have hlength := Text.ofNat_length_mono hle
  refine ⟨(Text.ofNat last).length - (Text.ofNat number).length, ?_, ?_⟩
  · simp [numbered, lead, List.leftpad]
  · simp [lead]
    omega

theorem numbered_shows (marked : Bool) {line : Text × Nat}
    (hline : line ∈ (List.splitOn '\n' source).zipIdx 1) (hle : line.2 ≤ last) :
    Shows source ((Text.ofNat last).length + 5) (if marked then '>' else ' ') line.2
      (numbered (Text.ofNat last).length marked line.2 line.1) := by
  obtain ⟨padding, heq, hlength⟩ := numbered_eq marked hle line.1
  rw [List.mem_zipIdx_iff_le_and_getElem?_sub] at hline
  exact ⟨padding, line.1, heq, hlength, hline⟩

/-- Behind the lead of a line stands the line of the source. -/
theorem numbered_getElem? (marked : Bool) {number : Nat} (hle : number ≤ last) (content : Text)
    (column : Nat) :
    (numbered (Text.ofNat last).length marked number content)[(Text.ofNat last).length + 5
      + column]? = content[column]? := by
  obtain ⟨padding, heq, hlength⟩ := numbered_eq marked hle content
  rw [heq, ← hlength, List.getElem?_append_right (Nat.le_add_right _ _), Nat.add_sub_cancel_left]

theorem caret_eq (width column : Nat) :
    caret width (column + 1) = List.replicate (width + 2) ' ' ++ " | ".toList
      ++ List.replicate column ' ' ++ ['^'] := by
  simp [caret, List.replicate_succ]

theorem idxOf_caret (width column : Nat) :
    (caret width (column + 1)).idxOf '^' = width + 5 + column := by
  rw [caret_eq, List.idxOf_append_of_notMem]
  · simp
    omega
  · simp

/-- Of numbers in a row, those from `first` to `last` are again in a row. -/
theorem filter_range' (k n first last : Nat) :
    (List.range' k n).filter (fun number => first ≤ number ∧ number ≤ last)
      = List.range' (max k first) (min (k + n) (last + 1) - max k first) := by
  induction n generalizing k with
  | zero =>
    have hnone : min (k + 0) (last + 1) - max k first = 0 := by omega
    rw [hnone]
    rfl
  | succ n ih =>
    rw [List.range'_succ, List.filter_cons, ih]
    by_cases hin : first ≤ k ∧ k ≤ last
    · have hstart : max k first = k := by omega
      have hstart' : max (k + 1) first = k + 1 := by omega
      have hcount : min (k + (n + 1)) (last + 1) - k
          = min (k + 1 + n) (last + 1) - (k + 1) + 1 := by omega
      rw [if_pos (by simpa using hin), hstart, hstart', hcount, List.range'_succ]
    · rw [if_neg (by simpa using hin)]
      by_cases hbefore : k < first
      · have hstart : max (k + 1) first = max k first := by omega
        have hcount : k + 1 + n = k + (n + 1) := by omega
        rw [hstart, hcount]
      · have hnone : min (k + 1 + n) (last + 1) - max (k + 1) first = 0 := by omega
        have hnone' : min (k + (n + 1)) (last + 1) - max k first = 0 := by omega
        rw [hnone, hnone']
        rfl

/-- The listing of a part of the lines shows those with numbers from `first` to `last`. -/
theorem listing_shows {part : List Text} {k : Nat}
    (hpart : ∀ line ∈ part.zipIdx k, line ∈ (List.splitOn '\n' source).zipIdx 1) :
    List.Forall₂ (Shows source ((Text.ofNat last).length + 5) ' ')
      (List.range' (max k first) (min (k + part.length) (last + 1) - max k first))
      (listing first last (part.zipIdx k)) := by
  rw [← filter_range', ← List.zipIdx_map_snd, List.filter_map, listing,
    List.forall₂_map_left_iff, List.forall₂_map_right_iff]
  refine List.forall₂_same.2 fun line hline => ?_
  obtain ⟨hline, hin⟩ := List.mem_filter.1 hline
  have hbetween : first ≤ line.2 ∧ line.2 ≤ last := of_decide_eq_true hin
  exact numbered_shows false (hpart line hline) hbetween.2

/-! ## Layouts -/

section Layout

variable {before after : List Text} {content : Text}

/-- The excerpt with the lines `first` to `last` of a source, marked at the line `content`. -/
def layoutAround (first last column : Nat) (before : List Text) (content : Text)
    (after : List Text) : Layout where
  width := (Text.ofNat last).length + 5
  above := listing first last (before.zipIdx 1)
  marked := numbered (Text.ofNat last).length true (before.length + 1 : Nat) content
  caret := caret (Text.ofNat last).length (column + 1)
  below := listing first last (after.zipIdx (before.length + 2))

theorem zipIdx_eq (before after : List Text) (content : Text) :
    (before ++ content :: after).zipIdx 1
      = before.zipIdx 1 ++ (content, before.length + 1) :: after.zipIdx (before.length + 2) := by
  rw [List.zipIdx_append, List.zipIdx_cons, Nat.add_comm 1]

theorem flatMap_entry_eq_lines (hfirst : first ≤ before.length + 1)
    (hlast : before.length + 1 ≤ last) :
    ((before ++ content :: after).zipIdx 1).flatMap (entry first last (before.length + 1) column)
      = (layoutAround first last column before content after).lines := by
  have hbefore : ∀ line ∈ before.zipIdx 1, line.2 ≠ before.length + 1 := by
    intro line hline
    have hlt := List.snd_lt_of_mem_zipIdx hline
    omega
  have hafter : ∀ line ∈ after.zipIdx (before.length + 2), line.2 ≠ before.length + 1 := by
    intro line hline
    have hgt := List.le_snd_of_mem_zipIdx hline
    omega
  rw [zipIdx_eq, List.flatMap_append, List.flatMap_cons, flatMap_entry_eq_listing hbefore,
    flatMap_entry_eq_listing hafter]
  simp [entry, layoutAround, Layout.lines, hfirst, hlast]

theorem layoutAround_pointsAt {culprit : Char}
    (hs : List.splitOn '\n' source = before ++ content :: after) (hrow : row = before.length + 1)
    (hculprit : content[column]? = some culprit) (hfirst : firstNumber row = first)
    (hlast : lastNumber (List.splitOn '\n' source).length row = last) :
    (layoutAround first last column before content after).PointsAt source row column culprit := by
  subst hrow
  have hfirst' : 1 ≤ first ∧ first ≤ before.length + 1 := by
    rw [← hfirst, firstNumber]
    omega
  have hlast' : before.length + 1 ≤ last ∧ last ≤ before.length + 1 + after.length := by
    rw [← hlast, lastNumber, hs, List.length_append, List.length_cons]
    omega
  have hwhole : (List.splitOn '\n' source).zipIdx 1
      = before.zipIdx 1 ++ (content, before.length + 1) :: after.zipIdx (before.length + 2) := by
    rw [hs, zipIdx_eq]
  have habove := @listing_shows source first last before 1
    fun line hline => hwhole ▸ List.mem_append_left _ hline
  have hmarked := @numbered_shows source last true (content, before.length + 1)
    (hwhole ▸ List.mem_append_right _ List.mem_cons_self) hlast'.1
  have hbelow := @listing_shows source first last after (before.length + 2)
    fun line hline => hwhole ▸ List.mem_append_right _ (List.mem_cons_of_mem _ hline)
  -- Of the lines above, those from `first` on are listed, and of those below, those up to `last`.
  have hstart : max 1 first = first := by omega
  have hlength : min (1 + before.length) (last + 1) - first = before.length + 1 - first := by omega
  have hstart' : max (before.length + 2) first = before.length + 2 := by omega
  have hlength' : min (before.length + 2 + after.length) (last + 1) - (before.length + 2)
      = last - (before.length + 1) := by omega
  rw [hstart, hlength] at habove
  rw [hstart', hlength'] at hbelow
  constructor
  case above => rwa [hfirst]
  case marked => exact hmarked
  case caret => exact caret_eq _ column
  case place => exact idxOf_caret _ column
  case culprit =>
    show (numbered (Text.ofNat last).length true (before.length + 1 : Nat) content)[
      (caret (Text.ofNat last).length (column + 1)).idxOf '^']? = some culprit
    rw [idxOf_caret, numbered_getElem? true hlast'.1, hculprit]
  case below => rwa [hlast]

/-- Around a line that the source has there is an excerpt, with the caret under the character in the
    column. -/
theorem exists_layout {culprit : Char}
    (hs : List.splitOn '\n' source = before ++ content :: after) (hrow : row = before.length + 1)
    (hculprit : content[column]? = some culprit) :
    ∃ layout : Layout, lines source row (some (column + 1)) excerptRadius = layout.lines
      ∧ layout.PointsAt source row column culprit := by
  refine ⟨_, ?_, layoutAround_pointsAt hs hrow hculprit rfl rfl⟩
  subst hrow
  have hle : before.length + 1 ≤ (List.splitOn '\n' source).length := by simp [hs]
  rw [lines_eq_flatMap hs (Nat.le_add_left 1 _) (hs ▸ hle), hs]
  refine flatMap_entry_eq_lines ?_ ?_
  · rw [firstNumber]
    omega
  · rw [lastNumber]
    exact Nat.le_min.2 ⟨hs ▸ hle, Nat.le_add_right _ _⟩

example : lines "a\nb \x7d".toList 2 (some 3) excerptRadius
    = ["  1 | a".toList, "> 2 | b \x7d".toList, "    |   ^".toList] := by
  decide

end Layout

end Excerpt

/-! ## Reports -/

namespace SyntaxError

theorem Cause.newline_not_mem_message (cause : Cause) : '\n' ∉ cause.message := by
  cases cause <;> decide

theorem Cause.culprit?_ne_newline {cause : Cause} {culprit : Char}
    (h : cause.culprit? = some culprit) : culprit ≠ '\n' := by
  rintro rfl
  cases cause <;> cases h

theorem report_eq (e : SyntaxError) (source : Text) :
    e.report source = "SyntaxError: ".toList ++ e.message ++ ['\n'] ++ List.intercalate ['\n']
      (Excerpt.lines source (Position.locate source e.position.offset).row
        (some ((Position.locate source e.position.offset).column + 1)) excerptRadius) :=
  rfl

/-- The lines of what is told about an error: its message, and the excerpt around its place. -/
theorem splitOn_report {source rest : Text} {e : SyntaxError} {culprit : Char}
    (hremark : e.remark = []) (hplace : e.position.Marks source (culprit :: rest))
    (hne : culprit ≠ '\n') :
    ∃ (layout : Excerpt.Layout) (offset row column : Nat), e.position = ⟨offset, row, column⟩
      ∧ List.splitOn '\n' (e.report source)
        = ("SyntaxError: ".toList ++ e.message) :: layout.lines
      ∧ layout.PointsAt source row column culprit ∧ source[offset]? = some culprit := by
  obtain ⟨head, hsource, hposition⟩ := hplace.exists_head
  obtain ⟨piece, after, hpiece⟩ := Text.exists_splitOn_eq_cons '\n' rest
  obtain ⟨before, hlength, hs⟩ :=
    Text.exists_splitOn_append head (Text.splitOn_cons_of_ne hne hpiece)
  rw [← hsource] at hs
  have hculprit : (Text.afterLast '\n' head ++ culprit :: piece)[(Text.afterLast '\n' head).length]?
      = some culprit := by simp
  obtain ⟨layout, hlines, hpoints⟩ := Excerpt.exists_layout hs rfl hculprit
  have hplace' : e.position = ⟨head.length, (before.length + 1 : Nat),
      (Text.afterLast '\n' head).length⟩ := by
    rw [hposition, hlength]
    rfl
  refine ⟨layout, head.length, before.length + 1, _, hplace', ?_, hpoints, by simp [hsource]⟩
  have hreport : e.report source
      = List.intercalate ['\n'] (("SyntaxError: ".toList ++ e.message) :: layout.lines) := by
    rw [report_eq, ← hplace.locate_eq, hplace', hlines,
      List.intercalate_cons_of_ne_nil layout.lines_ne_nil]
  rw [hreport]
  refine List.splitOn_intercalate '\n' (List.forall_mem_cons.2 ⟨?_, hpoints.newline_not_mem⟩)
    (List.cons_ne_nil _ _)
  have hmessage := e.cause.newline_not_mem_message
  simpa [message, hremark] using hmessage

end SyntaxError

/-- The report tells of the error: it has the place of the error, and its message is the wording of
    the error and an excerpt whose caret stands under the character of the source that is to
    blame. -/
def Report.PointsAt (report : Report) (source : Text) (e : SyntaxError) : Prop :=
  ∃ (message : Text) (layout : Excerpt.Layout) (offset row column : Nat) (culprit : Char),
    e.position = ⟨offset, row, column⟩ ∧ report.position = some e.position
      ∧ report.message = some message
      ∧ List.splitOn '\n' message = ("SyntaxError: ".toList ++ e.message) :: layout.lines
      ∧ layout.PointsAt source row column culprit
      ∧ source[offset]? = some culprit ∧ e.cause.culprit? = some culprit

namespace Session

section

variable {host : Host} [CallStack]

/-- A script that cannot be read is reported with what is told about the error and its place. -/
theorem run_of_error (session : Session host) {source : Text} {read : Parse} {e : SyntaxError}
    (h : parse source = .ok read) (he : read.ending.error? = some e) :
    ∃ report, (session.run source false).1 = .ok report ∧ report.status = .error
      ∧ report.message = some (e.report source)
      ∧ report.position = some (.locate source e.position.offset) := by
  obtain ⟨program, ending⟩ := read
  rw [run, h]
  cases ending with
  | clean => cases he
  | needsMore error | fatal error =>
    cases he
    exact ⟨_, rfl, rfl, rfl, rfl⟩

/-- The report about a text that cannot be read points at the character that is to blame. -/
theorem run_points_at_culprit (session : Session host) {source : Text} {read : Parse}
    (h : parse source = .ok read) (hread : read.ending ≠ .clean) :
    ∃ e report, read.ending.error? = some e ∧ (session.run source false).1 = .ok report
      ∧ report.status = .error ∧ report.PointsAt source e := by
  obtain ⟨e, he⟩ := Ending.exists_error hread
  obtain ⟨hremark, culprit, hculprit, rest, hplace⟩ := blames_of_parse h he
  obtain ⟨report, hrun, hstatus, hmessage, hposition⟩ := session.run_of_error h he
  obtain ⟨layout, offset, row, column, hat, hlines, hpoints, hoffset⟩ :=
    SyntaxError.splitOn_report hremark hplace (SyntaxError.Cause.culprit?_ne_newline hculprit)
  rw [← hplace.locate_eq] at hposition
  exact ⟨e, report, he, hrun, hstatus, e.report source, layout, offset, row, column, culprit, hat,
    hposition, hmessage, hlines, hpoints, hoffset, hculprit⟩

end

open StandardStack

/-- A brace too many in the ninth of ten lines: the numbers in the excerpt are of two widths. -/
theorem run_points_at_culprit_of_ninth_line :
    ∃ (session : Session Host.alone) (program : Program) (e : SyntaxError) (report : Report),
      parse "\n\n\n\n\n\n\n\na \x7d\n".toList = .ok ⟨program, .fatal e⟩
        ∧ e.position = ⟨10, 9, 2⟩
        ∧ (session.run "\n\n\n\n\n\n\n\na \x7d\n".toList false).1 = .ok report
        ∧ report.PointsAt "\n\n\n\n\n\n\n\na \x7d\n".toList e := by
  have hending : (parse "\n\n\n\n\n\n\n\na \x7d\n".toList).toOption.map Parse.ending
      = some (.fatal ⟨.unexpectedStringClosure, ⟨10, 9, 2⟩, []⟩) := by
    decide +kernel
  obtain ⟨program, hread⟩ := parse_of_ending hending
  let session : Session Host.alone := ⟨State.initial (), 10⟩
  obtain ⟨e, report, he, hrun, -, hpoints⟩ := run_points_at_culprit session hread nofun
  cases he
  exact ⟨session, program, _, report, hread, rfl, hrun, hpoints⟩

end Session

end Phrasebook
