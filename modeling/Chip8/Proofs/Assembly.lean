import Chip8.Disassembly
import Chip8.Proofs.Encoding
import Chip8.Proofs.Numeral
import Mathlib.Data.List.DropRight

namespace Chip8

/-- The text without the blanks at its end. -/
def Column.trimmed (text : String) : String :=
  String.ofList (text.toList.rdropWhile (· == ' '))

namespace Operand

/-- The operand that a text shows. A byte looks like a number of rows and is read as one. -/
def ofText : List Char → Operand
  | 'v' :: digits => register (Numeral.hexValue digits)
  | '#' :: digits => rows (Numeral.hexValue digits)
  | '$' :: digits => address (UInt16.ofNat (Numeral.hexValue digits))
  | name => symbol (String.ofList name)

/-- The operand as it is read back from its text. -/
def shown : Operand → Operand
  | byte value => rows value.toNat
  | operand => operand

/-- The characters that announce a number and those that stand between operands. -/
def reserved : List Char := ['v', '#', '$', ',', ' ']

theorem digit?_of_mem_reserved {c : Char} (member : c ∈ reserved) : Numeral.digit? 16 c = none := by
  simp only [reserved, List.mem_cons, List.not_mem_nil, or_false] at member
  rcases member with rfl | rfl | rfl | rfl | rfl <;> decide

/-- The name of the operand, if it has one, cannot be taken for something else. -/
def Legible : Operand → Prop
  | symbol name => name.toList ≠ [] ∧ ∀ c ∈ name.toList, c ∉ reserved
  | _ => True

theorem ofText_text {operand : Operand} (legible : operand.Legible) :
    ofText operand.text.toList = operand.shown := by
  cases operand with
  | register number =>
    simp [text, ofText, shown, Numeral.hexValue_upperHex]
  | byte value =>
    simp [text, ofText, shown, Numeral.hexValue_hex]
  | address value =>
    simp [text, ofText, shown, Numeral.hexValue_hex]
  | rows count =>
    simp [text, ofText, shown, Numeral.hexValue_hex]
  | symbol name =>
    obtain ⟨nonempty, plain⟩ := legible
    simp only [text, ofText, shown]
    split
    · rename_i digits spelled
      exact absurd (by decide) (plain 'v' (by simp [spelled]))
    · rename_i digits spelled
      exact absurd (by decide) (plain '#' (by simp [spelled]))
    · rename_i digits spelled
      exact absurd (by decide) (plain '$' (by simp [spelled]))
    · rw [String.ofList_toList]

theorem text_ne_empty {operand : Operand} (legible : operand.Legible) : operand.text.toList ≠ [] := by
  cases operand with
  | symbol name => exact legible.1
  | _ => simp [text]

/-- No operand holds a comma or a blank. -/
theorem not_mem_text {operand : Operand} (legible : operand.Legible) {c : Char}
    (separates : c = ',' ∨ c = ' ') : c ∉ operand.text.toList := by
  intro member
  have apart : c ∈ reserved := by
    rcases separates with rfl | rfl <;> decide
  have noDigit := digit?_of_mem_reserved apart
  have noMark : c ≠ 'v' ∧ c ≠ '#' ∧ c ≠ '$' := by
    rcases separates with rfl | rfl <;> decide
  cases operand with
  | symbol name => exact legible.2 c member apart
  | _ => simp [text, noMark, Numeral.not_mem_hex noDigit, Numeral.not_mem_upperHex noDigit] at member

end Operand

namespace Assembly

/-- The line of assembly that a text shows: a mnemonic up to the first blank, and after it the operands
between commas. -/
def ofText (text : String) : Assembly :=
  let line := text.toList
  let rest := (line.dropWhile (· != ' ')).filter (· != ' ')
  { mnemonic := String.ofList (line.takeWhile (· != ' '))
    operands := ((rest.splitOn ',').filter (!·.isEmpty)).map Operand.ofText }

private theorem takeWhile_append_blanks (line : List Char) {blanks : List Char}
    (blank : ∀ c ∈ blanks, c = ' ') :
    (line ++ blanks).takeWhile (· != ' ') = line.takeWhile (· != ' ') := by
  induction line with
  | nil =>
    cases blanks with
    | nil => rfl
    | cons c rest => simp [blank c (List.mem_cons_self ..)]
  | cons c rest ih => by_cases same : c = ' ' <;> simp [same, ih]

private theorem filter_dropWhile_append_blanks (line : List Char) {blanks : List Char}
    (blank : ∀ c ∈ blanks, c = ' ') :
    ((line ++ blanks).dropWhile (· != ' ')).filter (· != ' ') =
      (line.dropWhile (· != ' ')).filter (· != ' ') := by
  have gone {kept : List Char} (part : kept.Sublist blanks) : kept.filter (· != ' ') = [] := by
    rw [List.filter_eq_nil_iff]
    intro c member
    simp [blank c (part.subset member)]
  rw [List.dropWhile_append]
  split
  · rename_i all
    rw [List.isEmpty_iff.mp all, gone (List.dropWhile_sublist _)]
    rfl
  · rw [List.filter_append, gone (List.Sublist.refl _), List.append_nil]

/-- Blanks after a line show nothing. -/
theorem ofText_trimmed (text : String) : ofText (Column.trimmed text) = ofText text := by
  have blank : ∀ c ∈ text.toList.rtakeWhile (· == ' '), c = ' ' := by
    intro c member
    simpa using List.mem_rtakeWhile_imp member
  have whole : text.toList = text.toList.rdropWhile (· == ' ') ++ text.toList.rtakeWhile (· == ' ') :=
    List.rdropWhile_append_rtakeWhile.symm
  simp only [ofText, Column.trimmed, String.toList_ofList]
  conv_rhs => rw [whole, takeWhile_append_blanks _ blank, filter_dropWhile_append_blanks _ blank]

/-- A short mnemonic without blanks, and operands that can be told apart. -/
structure Legible (assembly : Assembly) : Prop where
  mnemonic : ' ' ∉ assembly.mnemonic.toList
  short : assembly.mnemonic.toList.length < 7
  operands : ∀ operand ∈ assembly.operands, operand.Legible

/-- What is left of a line without its blanks. -/
private theorem filter_intercalate {texts : List (List Char)} (plain : ∀ text ∈ texts, ' ' ∉ text) :
    ([',', ' '].intercalate texts).filter (· != ' ') = [','].intercalate texts := by
  induction texts with
  | nil => rfl
  | cons first rest ih =>
    have kept : first.filter (· != ' ') = first := by
      rw [List.filter_eq_self]
      intro c member
      have different : c ≠ ' ' := fun same => plain first (List.mem_cons_self ..) (same ▸ member)
      simpa using different
    cases rest with
    | nil => simpa using kept
    | cons second rest =>
      rw [List.intercalate_cons_cons, List.intercalate_cons_cons, List.filter_append, List.filter_append,
        ih fun text member => plain text (List.mem_cons_of_mem _ member), kept]
      rfl

/-- A short mnemonic does not fill its columns, so a blank follows it. -/
private theorem toList_text {assembly : Assembly} (legible : assembly.Legible) :
    assembly.text.toList = assembly.mnemonic.toList ++
      ' ' :: (List.replicate (6 - assembly.mnemonic.toList.length) ' ' ++
        [',', ' '].intercalate (assembly.operands.map (·.text.toList))) := by
  have short := legible.short
  have room : 7 - assembly.mnemonic.toList.length = 6 - assembly.mnemonic.toList.length + 1 := by omega
  rw [text, Column.left, String.toList_append, String.toList_ofList, List.rightpad, room,
    List.replicate_succ, String.toList_intercalate, List.map_map, List.append_assoc]
  rfl

/-- The texts of the operands are what stands between the commas, blanks aside. -/
private theorem splitOn_intercalate_text {operands : List Operand}
    (legible : ∀ operand ∈ operands, operand.Legible) :
    ((([',', ' '].intercalate (operands.map (·.text.toList))).filter (· != ' ')).splitOn ',').filter
      (!·.isEmpty) = operands.map (·.text.toList) := by
  have solid : ∀ text ∈ operands.map (·.text.toList), ',' ∉ text ∧ ' ' ∉ text ∧ text ≠ [] := by
    intro text member
    obtain ⟨operand, present, rfl⟩ := List.mem_map.mp member
    have readable := legible operand present
    exact ⟨Operand.not_mem_text readable (.inl rfl), Operand.not_mem_text readable (.inr rfl),
      Operand.text_ne_empty readable⟩
  rw [filter_intercalate fun text member => (solid text member).2.1]
  by_cases none : operands = []
  · simp [none]
  · rw [List.splitOn_intercalate ',' (fun text member => (solid text member).1) (by simpa using none),
      List.filter_eq_self]
    intro text member
    simpa using (solid text member).2.2

/-- What is read back from the text of a line is that line. -/
theorem ofText_text {assembly : Assembly} (legible : assembly.Legible) :
    ofText assembly.text = ⟨assembly.mnemonic, assembly.operands.map Operand.shown⟩ := by
  have solid : ∀ c ∈ assembly.mnemonic.toList, (c != ' ') = true := by
    intro c member
    have different : c ≠ ' ' := fun same => legible.mnemonic (same ▸ member)
    simpa using different
  have mnemonic : assembly.text.toList.takeWhile (· != ' ') = assembly.mnemonic.toList := by
    rw [toList_text legible, List.takeWhile_append_of_pos solid]
    simp
  have rest : (assembly.text.toList.dropWhile (· != ' ')).filter (· != ' ') =
      ([',', ' '].intercalate (assembly.operands.map (·.text.toList))).filter (· != ' ') := by
    rw [toList_text legible, List.dropWhile_append_of_pos solid]
    simp
  have shown : (assembly.operands.map (·.text.toList)).map Operand.ofText =
      assembly.operands.map Operand.shown := by
    rw [List.map_map]
    exact List.map_congr_left fun operand member => Operand.ofText_text (legible.operands operand member)
  simp only [ofText, mnemonic, rest, splitOn_intercalate_text legible.operands, String.ofList_toList, shown]

end Assembly

namespace Instruction

/-- An instruction with one register. -/
def ofRegister (make : Nat → Instruction) : List Operand → Option Instruction
  | [.register x] => some (make x)
  | _ => none

/-- An instruction with two registers. -/
def ofRegisters (make : Nat → Nat → Instruction) : List Operand → Option Instruction
  | [.register x, .register y] => some (make x y)
  | _ => none

/-- A test of a register against a byte or another register. -/
def ofTest (byte : Nat → Byte → Condition) (register : Nat → Nat → Condition) :
    List Operand → Option Instruction
  | [.register x, .rows value] => some (.skip (byte x (UInt8.ofNat value)))
  | [.register x, .register y] => some (.skip (register x y))
  | _ => none

def ofJump : List Operand → Option Instruction
  | [.address target] => some (.jump target)
  | [.register _, .address target] => some (.jumpIndexed target)
  | _ => none

def ofAdd : List Operand → Option Instruction
  | [.register x, .rows value] => some (.addByte x (UInt8.ofNat value))
  | [.symbol _, .register x] => some (.addIndex x)
  | operands => ofRegisters (.arithmetic .add) operands

/-- What a register is loaded from. -/
def ofSource (x : Nat) : Operand → Option Instruction
  | .rows value => some (.setByte x (UInt8.ofNat value))
  | .register y => some (.arithmetic .copy x y)
  | .symbol "DT" => some (.getDelay x)
  | .symbol "K" => some (.waitForKey x)
  | .symbol "[I]" => some (.loadRegisters x)
  | _ => none

/-- Where a register is loaded to. -/
def ofDestination (x : Nat) : String → Option Instruction
  | "DT" => some (.setDelay x)
  | "ST" => some (.setSound x)
  | "F" => some (.setGlyph x)
  | "B" => some (.storeDecimal x)
  | "[I]" => some (.storeRegisters x)
  | _ => none

def ofLoad : List Operand → Option Instruction
  | [.symbol _, .address target] => some (.setIndex target)
  | [.register x, source] => ofSource x source
  | [.symbol destination, .register x] => ofDestination x destination
  | _ => none

/-- The instruction that a line of assembly shows. -/
def ofAssembly (assembly : Assembly) : Option Instruction :=
  match assembly.mnemonic, assembly.operands with
  | "cls", _ => some .clearScreen
  | "ret", _ => some .ret
  | "jp", operands => ofJump operands
  | "call", [.address target] => some (.call target)
  | "se", operands => ofTest .isByte .equal operands
  | "sne", operands => ofTest .isNotByte .notEqual operands
  | "skp", operands => ofRegister (fun x => .skip (.held x)) operands
  | "sknp", operands => ofRegister (fun x => .skip (.released x)) operands
  | "ld", operands => ofLoad operands
  | "add", operands => ofAdd operands
  | "or", operands => ofRegisters (.arithmetic .or) operands
  | "and", operands => ofRegisters (.arithmetic .and) operands
  | "xor", operands => ofRegisters (.arithmetic .xor) operands
  | "sub", operands => ofRegisters (.arithmetic .sub) operands
  | "shr", operands => ofRegisters (.arithmetic .shiftRight) operands
  | "subn", operands => ofRegisters (.arithmetic .subFrom) operands
  | "shl", operands => ofRegisters (.arithmetic .shiftLeft) operands
  | "rnd", [.register x, .rows mask] => some (.random x (UInt8.ofNat mask))
  | "drw", [.register x, .register y, .rows rows] => some (.draw x y rows)
  | _, _ => none

theorem ofAssembly_shown (instruction : Instruction) :
    ofAssembly ⟨instruction.assembly.mnemonic, instruction.assembly.operands.map Operand.shown⟩ =
      some instruction := by
  cases instruction with
  | skip condition =>
    cases condition <;>
      simp [assembly, Condition.assembly, Operand.shown, ofAssembly, ofTest, ofRegister]
  | arithmetic operation x y =>
    cases operation <;>
      simp [assembly, Arithmetic.mnemonic, Operand.shown, ofAssembly, ofLoad, ofSource, ofAdd, ofRegisters]
  | _ =>
    simp [assembly, Operand.shown, ofAssembly, ofLoad, ofSource, ofDestination, ofJump, ofAdd]

theorem legible_assembly (instruction : Instruction) : instruction.assembly.Legible := by
  cases instruction with
  | skip condition =>
    cases condition <;> constructor <;> simp [assembly, Condition.assembly, Operand.Legible]
  | arithmetic operation x y =>
    cases operation <;> constructor <;> simp [assembly, Arithmetic.mnemonic, Operand.Legible]
  | _ => constructor <;> simp [assembly, Operand.Legible, Operand.reserved]

/-- The instruction that a text shows, if it shows one. -/
def ofText (text : String) : Option Instruction :=
  ofAssembly (Assembly.ofText text)

theorem ofText_trimmed_text (instruction : Instruction) :
    ofText (Column.trimmed instruction.text) = some instruction := by
  rw [ofText, Assembly.ofText_trimmed, text, Assembly.ofText_text instruction.legible_assembly,
    ofAssembly_shown]

theorem trimmed_text_injective :
    Function.Injective fun instruction : Instruction => Column.trimmed instruction.text := by
  intro left right same
  have read : some left = some right := by
    rw [← ofText_trimmed_text left, ← ofText_trimmed_text right]
    exact congrArg ofText same
  exact Option.some.inj read

theorem text_injective : Function.Injective text := fun _ _ same =>
  trimmed_text_injective (congrArg Column.trimmed same)

end Instruction

theorem Ink.paint_injective (ink : Ink) : Function.Injective ink.paint := by
  intro left right same
  simpa [paint] using same

namespace Palette

/-- A word that spells no instruction, as a line of assembly. -/
def unknownLine (word : Word) : Assembly :=
  ⟨"inval", [.symbol (Numeral.hex 4 word.toNat)]⟩

theorem legible_unknownLine (word : Word) : (unknownLine word).Legible := by
  have digits : Operand.Legible (.symbol (Numeral.hex 4 word.toNat)) := by
    refine ⟨Numeral.hex_ne_empty 4 word.toNat, fun c member reserved => ?_⟩
    exact Numeral.not_mem_hex (Operand.digit?_of_mem_reserved reserved) 4 word.toNat member
  constructor
  · simp [unknownLine]
  · simp [unknownLine]
  · simpa [unknownLine] using digits

theorem text_unknownLine (word : Word) :
    (unknownLine word).text = Column.left 7 "inval" ++ Numeral.hex 4 word.toNat := by
  simp only [Assembly.text, unknownLine, List.map_singleton, String.intercalate_singleton, Operand.text]

theorem left_inval : Column.left 7 "inval" = "inval  " := by
  decide

/-- The text of a word that spells no instruction shows no instruction. -/
theorem ofText_trimmed_unknownLine (word : Word) :
    Instruction.ofText (Column.trimmed (unknownLine word).text) = none := by
  rw [Instruction.ofText, Assembly.ofText_trimmed, Assembly.ofText_text (legible_unknownLine word)]
  simp [unknownLine, Instruction.ofAssembly]

theorem trimmed_text_ne_unknownLine (instruction : Instruction) (word : Word) :
    Column.trimmed instruction.text ≠ Column.trimmed (unknownLine word).text := by
  intro same
  have shown := instruction.ofText_trimmed_text
  rw [same, ofText_trimmed_unknownLine] at shown
  contradiction

theorem text_unknownLine_injective : Function.Injective fun word => (unknownLine word).text := by
  intro left right same
  simp only [text_unknownLine, String.append_right_inj] at same
  exact UInt16.toNat_inj.mp (Numeral.hex_injective 4 same)

theorem word_eq (palette : Palette) (word : Word) :
    palette.word word =
      match Instruction.decode word with
      | some instruction => palette.known.paint instruction.text
      | none => palette.unknown.paint (unknownLine word).text := by
  cases decoded : Instruction.decode word with
  | some instruction => simp only [Palette.word, decoded]
  | none => simp only [Palette.word, decoded, text_unknownLine]

/-- The line of a word determines the word, as long as the palette keeps the two kinds of lines apart. -/
theorem word_injective {palette : Palette}
    (apart : ∀ (instruction : Instruction) (word : Word),
      palette.known.paint instruction.text ≠ palette.unknown.paint (unknownLine word).text) :
    Function.Injective palette.word := by
  intro left right same
  rw [word_eq, word_eq] at same
  cases fromLeft : Instruction.decode left with
  | some instruction =>
    cases fromRight : Instruction.decode right with
    | some other =>
      simp only [fromLeft, fromRight] at same
      have equal : instruction = other := Instruction.text_injective (palette.known.paint_injective same)
      rw [← Instruction.word_of_decode fromLeft, ← Instruction.word_of_decode fromRight, equal]
    | none =>
      simp only [fromLeft, fromRight] at same
      exact absurd same (apart instruction right)
  | none =>
    cases fromRight : Instruction.decode right with
    | some other =>
      simp only [fromLeft, fromRight] at same
      exact absurd same.symm (apart other left)
    | none =>
      simp only [fromLeft, fromRight] at same
      exact text_unknownLine_injective (palette.unknown.paint_injective same)

theorem plain_apart (instruction : Instruction) (word : Word) :
    plain.known.paint instruction.text ≠ plain.unknown.paint (unknownLine word).text := by
  simp only [plain, Ink.paint_plain]
  intro same
  exact trimmed_text_ne_unknownLine instruction word (congrArg Column.trimmed same)

/-- A terminal shows the two kinds of lines in different colours. -/
theorem coloured_apart (instruction : Instruction) (word : Word) :
    coloured.known.paint instruction.text ≠ coloured.unknown.paint (unknownLine word).text := by
  intro same
  have characters := congrArg String.toList same
  simp [coloured, Ink.paint, Ink.green, Ink.boldRed, Ink.ofCodes, Ink.sequence] at characters

/-- Instructions have different texts, also when blanks at the end do not count, and none looks like a word
that spells nothing. -/
theorem disassembly_lossless :
    (Function.Injective fun instruction : Instruction => Column.trimmed instruction.text) ∧
    (∀ (instruction : Instruction) (word : Word),
      Column.trimmed instruction.text ≠ Column.trimmed ("inval  " ++ Numeral.hex 4 word.toNat)) ∧
    Function.Injective plain.word ∧ Function.Injective coloured.word := by
  refine ⟨Instruction.trimmed_text_injective, ?_, word_injective plain_apart,
    word_injective coloured_apart⟩
  intro instruction word
  rw [← left_inval, ← text_unknownLine]
  exact trimmed_text_ne_unknownLine instruction word

end Palette

end Chip8
