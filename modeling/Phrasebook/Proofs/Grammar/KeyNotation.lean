import Phrasebook.Key
import Phrasebook.Proofs.Grammar.RoundTrip
import Phrasebook.Proofs.Reader.Levels
import Phrasebook.Proofs.Text.Lowercase
import Phrasebook.Proofs.Tree.Alike

/-! # Keys are written as commands

A key is written as a command that has it for its key, with empty strings in its gaps. What a word
holds is escaped, so that no word can be taken for a gap or for two words.

* `Command.Alike.key_eq` — commands that are alike have one key.
* `Key.toCommand` — the command that a key is written as.
* `Key.exists_parse_print`, `Key.ofPattern_print` — it is read back, and so is the key.
* `Key.ofPattern_print_ofCommand` — the key of every command is one of those.
* `Key.print_eq_print_iff` — keys that look alike are the same.
-/

namespace Phrasebook

/-! ## Keys of commands -/

theorem Part.Alike.place_eq {part other : Part} (h : part.Alike other) :
    (KeyPart.ofPart part).lower = (KeyPart.ofPart other).lower := by
  cases h with
  | word ht => exact congrArg KeyPart.word ht
  | string | filler _ | foreign => rfl

theorem Part.AllAlike.places_eq {parts others : List Part} (h : Part.AllAlike parts others) :
    (parts.map KeyPart.ofPart).map KeyPart.lower
      = (others.map KeyPart.ofPart).map KeyPart.lower := by
  induction parts generalizing others with
  | nil =>
    cases h
    rfl
  | cons part parts ih =>
    cases h with
    | cons hpart hrest => simp only [List.map_cons, hpart.place_eq, ih hrest]

theorem Command.Alike.key_eq {command other : Command} (h : command.Alike other) :
    Key.ofCommand command = Key.ofCommand other := by
  cases h with
  | mk hparts => exact congrArg Key.mk hparts.places_eq

/-- The key of a pattern is that of its only command. -/
theorem Key.ofPattern_eq_ok_iff [CallStack] {pattern : Text} {key : Key} :
    Key.ofPattern pattern = .ok key
      ↔ ∃ command, parseProgram pattern = .ok [command] ∧ Key.ofCommand command = key := by
  rw [Key.ofPattern]
  split
  · next e he => simp [he]
  · next command he => simp [he]
  · next program hne he =>
    rw [he]
    constructor
    · nofun
    · rintro ⟨command, hcommand, -⟩
      exact absurd (Except.ok.inj hcommand) (hne command)

/-- A pattern without fillers can be read whatever the stack has room for. -/
theorem Key.ofPattern_eq_ok [CallStack] {pattern : Text} {key : Key}
    (h : (parseProgramWithin 1 pattern).toOption.map (List.map Key.ofCommand) = some [key]) :
    Key.ofPattern pattern = .ok key := by
  obtain ⟨program, hread, hkeys⟩ := except_eq_ok_of_map h
  obtain ⟨command, rfl, hkey⟩ := List.map_eq_singleton_iff.1 hkeys
  have hfew : parseProgramWithin 1 pattern ≠ .error .tooDeep := by simp [hread]
  have hmore := parseProgramWithin_of_le (Nat.succ_le_of_lt nestingLimit_pos) hfew
  exact ofPattern_eq_ok_iff.2 ⟨command, hmore.trans hread, hkey⟩

/-! ## Written keys -/

/-- The part that stands for a place when a key is written: a gap is an empty string. -/
def KeyPart.toPart : KeyPart → Part
  | word text => .word text none
  | gap => .string [] none

theorem KeyPart.render_toPart (place : KeyPart) : place.toPart.render = place.print := by
  cases place <;> rfl

theorem KeyPart.ofPart_toPart (place : KeyPart) : KeyPart.ofPart place.toPart = place := by
  cases place <;> rfl

theorem KeyPart.lower_lower (place : KeyPart) : place.lower.lower = place.lower := by
  cases place with
  | word text => exact congrArg word text.lower_lower
  | gap => rfl

namespace Key

/-- The command that a key is written as. -/
def toCommand (key : Key) : Command := .mk (key.parts.map KeyPart.toPart) none

theorem render_toCommand (key : Key) : key.toCommand.render = key.print := by
  have heach : ∀ places : List KeyPart,
      Part.renderEach (places.map KeyPart.toPart) = places.map KeyPart.print := by
    intro places
    induction places with
    | nil => rfl
    | cons place places ih => simp only [List.map_cons, Part.renderEach, place.render_toPart, ih]
  exact congrArg (List.intercalate [' ']) (heach key.parts)

/-- Written down, a key of words in lower case keeps them. -/
theorem ofCommand_toCommand (places : List KeyPart) :
    ofCommand (ofParts places).toCommand = ofParts places := by
  simp only [ofCommand, ofParts, toCommand, Command.parts_mk, List.map_map, mk.injEq]
  refine List.map_congr_left fun place _ => ?_
  simp only [Function.comp_apply, KeyPart.ofPart_toPart, KeyPart.lower_lower]

theorem toCommand_every {P : Part → Prop} (hword : ∀ text, P (.word text none))
    (hstring : P (.string [] none)) (key : Key) : key.toCommand.Every P := by
  have hparts : ∀ places : List KeyPart, Part.AllEvery P (places.map KeyPart.toPart) := by
    intro places
    induction places with
    | nil => trivial
    | cons place places ih =>
      cases place with
      | word text => exact ⟨hword text, ih⟩
      | gap => exact ⟨hstring, ih⟩
  exact hparts key.parts

theorem toCommand_wellFormed {places : List KeyPart} (hne : places ≠ [])
    (hw : .word [] ∉ places) : (ofParts places).toCommand.WellFormed := by
  have hparts : ∀ places : List KeyPart, .word [] ∉ places →
      Part.AllWellFormed ((places.map KeyPart.lower).map KeyPart.toPart) := by
    intro places hw
    induction places with
    | nil => trivial
    | cons place places ih =>
      have hrest := ih fun hmem => hw (List.mem_cons_of_mem _ hmem)
      cases place with
      | word text =>
        refine ⟨fun hnil => hw ?_, hrest⟩
        rw [Text.lower_eq_nil_iff.1 hnil]
        exact List.mem_cons_self
      | gap => exact ⟨trivial, hrest⟩
  refine ⟨?_, hparts places hw⟩
  simpa [ofParts] using hne

theorem nesting_toCommand (key : Key) : Program.nesting [key.toCommand] = 0 := by
  have hparts : ∀ places : List KeyPart, Part.nestingAll (places.map KeyPart.toPart) = 0 := by
    intro places
    induction places with
    | nil => rfl
    | cons place places ih =>
      cases place <;> simp [KeyPart.toPart, Part.nestingAll, Part.nesting, ih]
  simp [Program.nesting, toCommand, Command.nesting, hparts]

variable [CallStack]

/-- The text of a key is a program of one command, which has the key. -/
theorem exists_parse_print {places : List KeyPart} (hne : places ≠ []) (hw : .word [] ∉ places) :
    ∃ command, parse (ofParts places).print = .ok ⟨[command], .clean⟩
      ∧ Command.same command (ofParts places).toCommand = true := by
  let written : Program := [(ofParts places).toCommand]
  have hspells : Spells (ofParts places).print written := by
    have hrender : Program.render [';'] written = (ofParts places).print := by
      rw [Program.render, Program.renderEach, Program.renderEach, List.intercalate_singleton,
        render_toCommand]
    rw [← hrender]
    refine .program (Program.spells_render written (.terminator (.inl rfl) .nil) ?_ ?_ ?_)
    · exact ⟨toCommand_wellFormed hne hw, trivial⟩
    · exact ⟨toCommand_every (P := Part.Native) (fun _ => trivial) trivial _, trivial⟩
    · exact ⟨toCommand_every (P := Part.Balanced) (fun _ => trivial) rfl _, trivial⟩
  have hnesting : Program.nesting written < nestingLimit := by
    rw [nesting_toCommand]
    exact nestingLimit_pos
  obtain ⟨read, hread, hsame⟩ := parse_clean_iff_spells.2 ⟨hspells, hnesting⟩
  have hlength := Program.length_eq_of_same hsame
  obtain ⟨command, rfl⟩ := List.length_eq_one_iff.1 hlength
  refine ⟨command, hread, ?_⟩
  simpa [written, Program.same] using hsame

/-- A key is read back from its text, if it has a place at all and no word of it is empty. -/
theorem ofPattern_print {places : List KeyPart} (hne : places ≠ []) (hw : .word [] ∉ places) :
    ofPattern (ofParts places).print = .ok (ofParts places) := by
  obtain ⟨command, hread, hsame⟩ := exists_parse_print hne hw
  refine ofPattern_eq_ok_iff.2 ⟨command, parseProgram_eq_ok_iff.2 hread, ?_⟩
  rw [(Command.Alike.of_same hsame).key_eq, ofCommand_toCommand]

/-- The key of a command can be read back from its text. -/
theorem ofPattern_print_ofCommand {command : Command} (h : command.WellFormed) :
    ofPattern (ofCommand command).print = .ok (ofCommand command) := by
  obtain ⟨parts, at?⟩ := command
  obtain ⟨hne, hparts⟩ := h
  have hwords : ∀ parts : List Part, Part.AllWellFormed parts →
      .word [] ∉ parts.map KeyPart.ofPart := by
    intro parts hparts hmem
    induction parts with
    | nil => cases hmem
    | cons part parts ih =>
      obtain hmem | hmem := List.mem_cons.1 hmem
      · cases part with
        | word text at? => exact hparts.1 (KeyPart.word.inj hmem).symm
        | string | filler | foreign => cases hmem
      · exact ih hparts.2 hmem
  exact ofPattern_print (by simpa using hne) (hwords parts hparts)

/-- Two keys are written alike only if they are one. -/
theorem print_eq_print_iff {places others : List KeyPart} (hne : places ≠ [])
    (hw : .word [] ∉ places) (hne' : others ≠ []) (hw' : .word [] ∉ others) :
    (ofParts places).print = (ofParts others).print ↔ ofParts places = ofParts others := by
  constructor
  · intro h
    have hread := ofPattern_print hne hw
    rw [h, ofPattern_print hne' hw'] at hread
    exact (Except.ok.inj hread).symm
  · exact congrArg print

end Key

end Phrasebook
