import Chip8.CommandLine.Disassemble
import Chip8.Proofs.Grid
import Chip8.Proofs.Listing

namespace Chip8

theorem Numeral.digit?_newline : digit? 16 '\n' = none := by
  decide

theorem Column.newline_not_mem_left {text : String} (width : Nat) (plain : '\n' ∉ text.toList) :
    '\n' ∉ (left width text).toList := by
  rw [left, String.toList_ofList, List.rightpad, List.mem_append, not_or]
  refine ⟨plain, fun blank => ?_⟩
  exact absurd (List.eq_of_mem_replicate blank) (by decide)

theorem Ink.newline_not_mem_paint {ink : Ink} {text : String} (opening : '\n' ∉ ink.opening.toList)
    (closing : '\n' ∉ ink.closing.toList) (plain : '\n' ∉ text.toList) :
    '\n' ∉ (ink.paint text).toList := by
  simp [paint, opening, closing, plain]

namespace Instruction

theorem newline_not_mem_mnemonic (instruction : Instruction) :
    '\n' ∉ instruction.assembly.mnemonic.toList := by
  cases instruction with
  | skip condition => cases condition <;> simp [assembly, Condition.assembly]
  | arithmetic operation x y => cases operation <;> simp [assembly, Arithmetic.mnemonic]
  | _ => simp [assembly]

/-- The text of an instruction stays on one line, whatever its operands are. -/
theorem newline_not_mem_text (instruction : Instruction) : '\n' ∉ instruction.text.toList := by
  have hex := Numeral.not_mem_hex Numeral.digit?_newline
  have upperHex := Numeral.not_mem_upperHex Numeral.digit?_newline
  rw [text, Assembly.text, String.toList_append, List.mem_append, not_or]
  refine ⟨Column.newline_not_mem_left 7 instruction.newline_not_mem_mnemonic, ?_⟩
  cases instruction with
  | skip condition =>
    cases condition <;> simp [assembly, Condition.assembly, Operand.text, hex, upperHex]
  | _ => simp [assembly, Operand.text, hex, upperHex]

end Instruction

namespace Palette

theorem newline_not_mem_word (content : Word) : '\n' ∉ (coloured.word content).toList := by
  rw [word]
  cases Instruction.decode content with
  | some instruction =>
    exact Ink.newline_not_mem_paint (by decide) (by decide) instruction.newline_not_mem_text
  | none =>
    have padded : '\n' ∉ (Column.left 7 "inval").toList := Column.newline_not_mem_left 7 (by decide)
    have digits := Numeral.not_mem_hex Numeral.digit?_newline 4 content.toNat
    refine Ink.newline_not_mem_paint (by decide) (by decide) ?_
    rw [String.toList_append, List.mem_append, not_or]
    exact ⟨padded, digits⟩

theorem newline_not_mem_listingLine (address content : Word) :
    '\n' ∉ (coloured.listingLine address content).toList := by
  have hex := Numeral.not_mem_hex Numeral.digit?_newline
  have dimmed : '\n' ∉ (Ink.dim.paint (Numeral.hex 4 content.toNat)).toList :=
    Ink.newline_not_mem_paint (by decide) (by decide) (hex 4 content.toNat)
  simp [listingLine, newline_not_mem_word, hex, dimmed]

theorem newline_not_mem_of_mem_listing {base : Word} {bytes : List Byte} {line : String}
    (member : line ∈ coloured.listing base bytes) : '\n' ∉ line.toList := by
  fun_induction listing coloured base bytes with
  | case1 base high low rest ih =>
    rcases List.mem_cons.mp member with rfl | later
    · exact newline_not_mem_listingLine base _
    · exact ih later
  | case2 bytes base short => simp at member

variable (palette : Palette) (base : Word)

theorem listing_append {first : List Byte} (second : List Byte) (even : first.length % 2 = 0) :
    palette.listing base (first ++ second) =
      palette.listing base first ++ palette.listing (base + UInt16.ofNat first.length) second := by
  fun_induction palette.listing base first with
  | case1 base high low rest ih =>
    have evenRest : rest.length % 2 = 0 := by
      simp only [List.length_cons] at even
      omega
    rw [List.cons_append, List.cons_append, listing, ih evenRest, Word.add_two_add_ofNat]
    rfl
  | case2 first base short =>
    rcases first with _ | ⟨high, _ | ⟨low, rest⟩⟩
    · exact congrArg (palette.listing · second) (UInt16.add_zero base).symm
    · simp at even
    · exact absurd rfl (short high low rest)

theorem length_listing (bytes : List Byte) : (palette.listing base bytes).length = bytes.length / 2 := by
  fun_induction palette.listing base bytes with
  | case1 base high low rest ih =>
    simp only [List.length_cons, ih]
    omega
  | case2 bytes base short =>
    rcases bytes with _ | ⟨high, _ | ⟨low, rest⟩⟩
    · rfl
    · simp
    · exact absurd rfl (short high low rest)

/-- Leaving out words at the start leaves out their lines. -/
theorem drop_listing {bytes : List Byte} {words : Nat} (inside : 2 * words ≤ bytes.length) :
    (palette.listing base bytes).drop words =
      palette.listing (base + UInt16.ofNat (2 * words)) (bytes.drop (2 * words)) := by
  have length : (bytes.take (2 * words)).length = 2 * words := List.length_take_of_le inside
  have even : (bytes.take (2 * words)).length % 2 = 0 := by omega
  have lines : (palette.listing base (bytes.take (2 * words))).length = words := by
    rw [length_listing]
    omega
  have split := palette.listing_append base (bytes.drop (2 * words)) even
  rw [List.take_append_drop, length] at split
  rw [split, List.drop_left' lines]

end Palette

namespace CommandLine

namespace ListingChoices

variable {choices : ListingChoices} {content : List Byte} {offset : Nat}

theorem listing_of_le (inside : choices.offset ≤ content.length) :
    choices.listing content =
      Palette.coloured.listing (choices.loadAddress + UInt16.ofNat choices.offset)
        (content.drop choices.offset) := by
  rw [listing, Nat.min_eq_left inside]

/-- An offset that is a whole number of words later leaves out the lines of these words. -/
theorem listing_withOffset (later : choices.offset ≤ offset) (even : (offset - choices.offset) % 2 = 0)
    (inside : offset ≤ content.length) :
    listing { choices with offset } content =
      (choices.listing content).drop ((offset - choices.offset) / 2) := by
  have gap : 2 * ((offset - choices.offset) / 2) = offset - choices.offset := by omega
  have room : 2 * ((offset - choices.offset) / 2) ≤ (content.drop choices.offset).length := by
    rw [List.length_drop]
    omega
  have reached : choices.offset + (offset - choices.offset) = offset := Nat.add_sub_of_le later
  rw [listing_of_le inside, listing_of_le (Nat.le_trans later inside), Palette.drop_listing _ _ room, gap,
    List.drop_drop, reached, UInt16.add_assoc, ← UInt16.ofNat_add, reached]

theorem listing_of_past (past : content.length ≤ choices.offset) : choices.listing content = [] := by
  rw [listing, Nat.min_eq_right past, List.drop_length]
  rfl

end ListingChoices

/-- A run that ends well and writes these rows, each on a line of its own. -/
structure Outcome.Shows (outcome : Outcome) (rows : List String) : Prop where
  code : outcome.code = 0
  errors : outcome.errors = ""
  output : outcome.output = String.join (rows.map (· ++ "\n"))
  lines : HasLines outcome.output (rows.map String.toList)

theorem Outcome.Shows.eq {outcome : Outcome} {rows : List String} (shows : outcome.Shows rows) :
    outcome = ⟨0, String.join (rows.map (· ++ "\n")), ""⟩ := by
  obtain ⟨code, output, errors⟩ := outcome
  obtain ⟨rfl, rfl, rfl, _⟩ := shows
  rfl

section Outcome

variable {files : Files} {file : String} {content : List Byte} {arguments : List String}
  {choices : ListingChoices}

theorem shows_outcome (holds : files file = .ok content)
    (asked : listingProgram.invocation arguments = .ok (.run choices file)) :
    (listingProgram.outcome files arguments).Shows (choices.listing content) := by
  have ended : listingProgram.outcome files arguments = ⟨0, lines (choices.listing content), ""⟩ := by
    rw [Program.outcome, asked]
    simp only [holds]
    rfl
  rw [ended]
  exact ⟨rfl, rfl, rfl, HasLines.join fun line member => Palette.newline_not_mem_of_mem_listing member⟩

end Outcome

/-- Listings split where a word ends, and each line has its own address. So a start that is whole words later
leaves out the lines of those words. -/
theorem listing_from_offset :
    (∀ (palette : Palette) (base : Word) (first second : List Byte), first.length % 2 = 0 →
      palette.listing base (first ++ second) =
        palette.listing base first ++ palette.listing (base + UInt16.ofNat first.length) second) ∧
    (∀ (palette : Palette) (base : Word) (bytes : List Byte),
      (palette.listing base bytes).length = bytes.length / 2 ∧
      ∀ line < bytes.length / 2,
        let word := Word.ofProgram bytes line
        (palette.listing base bytes)[line]? =
          some (Numeral.hex 3 (base + UInt16.ofNat (2 * line)).toNat ++ ": " ++ palette.word word ++ " " ++
            Ink.dim.paint (Numeral.hex 4 word.toNat))) ∧
    ∀ (files : Files) (file : String) (content : List Byte) (arguments : List String)
      (choices : ListingChoices), files file = .ok content →
      listingProgram.invocation arguments = .ok (.run choices file) →
      (choices.offset ≤ content.length →
        let start := choices.loadAddress + UInt16.ofNat choices.offset
        let shown := Palette.coloured.listing start (content.drop choices.offset)
        (listingProgram.outcome files arguments).Shows shown ∧
        ∀ (offset : Nat) (others : List String),
          listingProgram.invocation others = .ok (.run { choices with offset } file) →
          choices.offset ≤ offset → (offset - choices.offset) % 2 = 0 → offset ≤ content.length →
          (listingProgram.outcome files others).Shows (shown.drop ((offset - choices.offset) / 2))) ∧
      (content.length ≤ choices.offset → listingProgram.outcome files arguments = ⟨0, "", ""⟩) := by
  refine ⟨fun palette base first second => palette.listing_append base second, fun palette base bytes =>
    ⟨palette.length_listing base bytes, fun line => palette.getElem?_listing base⟩, ?_⟩
  intro files file content arguments choices holds asked
  have own := shows_outcome holds asked
  constructor
  · intro inside start shown
    have whole : choices.listing content = shown := ListingChoices.listing_of_le inside
    refine ⟨whole ▸ own, fun offset others askedLater later even insideLater => ?_⟩
    have part := ListingChoices.listing_withOffset later even insideLater
    rw [whole] at part
    exact part ▸ shows_outcome holds askedLater
  · intro past
    rw [ListingChoices.listing_of_past past] at own
    exact own.eq

/-- A file with a stray byte before its two words and one behind them. -/
def strayBytes : List Byte := [0x07, 0x00, 0xe0, 0x12, 0x00, 0xff]

/-- The first word stands at the last address. The listing of the second word alone has it where the listing of
both has it. -/
theorem listing_from_offset_strayBytes :
    let files (name : String) : FileContent := if name = "stray" then .ok strayBytes else .error .notFound
    let first := "ffff: \x1b[32mcls    \x1b[0m \x1b[90m00e0\x1b[39m\n"
    let second := "001: \x1b[32mjp     $200\x1b[0m \x1b[90m1200\x1b[39m\n"
    listingProgram.outcome files ["stray", "-l", "fffe", "-o1"] = ⟨0, first ++ second, ""⟩ ∧
      listingProgram.outcome files ["--offset=3", "-lfffe", "stray"] = ⟨0, second, ""⟩ ∧
      listingProgram.outcome files ["-o", "7", "stray"] = ⟨0, "", ""⟩ := by
  intro files first second
  obtain ⟨_, _, program⟩ := listing_from_offset
  have holds : files "stray" = .ok strayBytes := rfl
  have asked : listingProgram.invocation ["stray", "-l", "fffe", "-o1"] =
      .ok (.run ⟨0xfffe, 1⟩ "stray") := rfl
  have askedLater : listingProgram.invocation ["--offset=3", "-lfffe", "stray"] =
      .ok (.run ⟨0xfffe, 3⟩ "stray") := rfl
  have askedPast : listingProgram.invocation ["-o", "7", "stray"] = .ok (.run ⟨0x200, 7⟩ "stray") := rfl
  obtain ⟨whole, later⟩ := (program files "stray" strayBytes _ _ holds asked).1 (by decide)
  have part := later 3 _ askedLater (by decide) (by decide) (by decide)
  refine ⟨whole.eq.trans ?_, part.eq.trans ?_, ?_⟩
  · decide +kernel
  · decide +kernel
  · exact (program files "stray" strayBytes _ _ holds askedPast).2 (by decide)

end CommandLine

end Chip8
