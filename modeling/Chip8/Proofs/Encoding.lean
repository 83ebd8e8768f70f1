import Chip8.Instruction.Decode
import Chip8.Text.Numeral

/-! Each instruction has a pattern of four hexadecimal digits, some of them letters that stand for its
operands. -/

namespace Chip8

namespace Pattern

/-- A letter that names an operand stands for one digit of it, as many from its end as the letter still
occurs; other characters are digits themselves. -/
def digit (operands : List (Char × Nat)) (c : Char) (rest : List Char) : Nat :=
  match operands.lookup c with
  | some operand => operand >>> (4 * rest.count c) % 16
  | none => (Numeral.digit? 16 c).getD 0

/-- The number that is read when the characters of a pattern follow the digits of a value. -/
def spell (operands : List (Char × Nat)) (value : Nat) : List Char → Nat
  | [] => value
  | c :: rest => spell operands (16 * value + digit operands c rest) rest

section Letters

variable (operands : List (Char × Nat)) (value : Nat) (c : Char) (rest : List Char)

@[simp] theorem spell_nil : spell operands value [] = value := rfl

@[simp] theorem spell_cons :
    spell operands value (c :: rest) = spell operands (16 * value + digit operands c rest) rest := rfl

/-- Where no letter stands for an operand, a character is a digit itself. -/
@[simp] theorem digit_nil :
    digit [] c rest =
      if '0' ≤ c ∧ c ≤ '9' then c.toNat - '0'.toNat
      else if 'a' ≤ c ∧ c ≤ 'f' then c.toNat - 'a'.toNat + 10
      else if 'A' ≤ c ∧ c ≤ 'F' then c.toNat - 'A'.toNat + 10
      else 0 := by
  simp only [digit, List.lookup_nil, Numeral.digit?, Char.le_def, UInt32.le_iff_toNat_le, Char.toNat]
  grind

@[simp] theorem digit_cons (name : Char) (operand : Nat) :
    digit ((name, operand) :: operands) c rest =
      if c = name then operand >>> (4 * rest.count c) % 16 else digit operands c rest := by
  by_cases same : c = name
  · simp [digit, same]
  · have other : (c == name) = false := by simpa using same
    simp [digit, List.lookup_cons, other, same]

end Letters

end Pattern

/-- The pattern of the instruction that tests the condition. -/
@[simp] def Condition.pattern : Condition → String
  | isByte .. => "3xBB"
  | isNotByte .. => "4xBB"
  | equal .. => "5xy0"
  | notEqual .. => "9xy0"
  | held _ => "ex9e"
  | released _ => "exa1"

/-- The operands of the condition with the letters that stand for them. -/
@[simp] def Condition.operands : Condition → List (Char × Nat)
  | isByte x byte | isNotByte x byte => [('x', x), ('B', byte.toNat)]
  | equal x y | notEqual x y => [('x', x), ('y', y)]
  | held x | released x => [('x', x)]

@[simp] def Arithmetic.pattern : Arithmetic → String
  | copy => "8xy0"
  | or => "8xy1"
  | and => "8xy2"
  | xor => "8xy3"
  | add => "8xy4"
  | sub => "8xy5"
  | shiftRight => "8xy6"
  | subFrom => "8xy7"
  | shiftLeft => "8xye"

theorem Arithmetic.code_of_ofCode {code : Nat} {operation : Arithmetic}
    (found : ofCode code = some operation) : operation.code = code := by
  unfold ofCode at found
  split at found <;> simp only [Option.some.injEq, reduceCtorEq] at found
  all_goals subst found; rfl

namespace Instruction

@[simp] def pattern : Instruction → String
  | clearScreen => "00e0"
  | ret => "00ee"
  | jump _ => "1AAA"
  | call _ => "2AAA"
  | skip condition => condition.pattern
  | setByte .. => "6xBB"
  | addByte .. => "7xBB"
  | arithmetic operation _ _ => operation.pattern
  | setIndex _ => "aAAA"
  | jumpIndexed _ => "bAAA"
  | random .. => "cxBB"
  | draw .. => "dxyn"
  | getDelay _ => "fx07"
  | waitForKey _ => "fx0a"
  | setDelay _ => "fx15"
  | setSound _ => "fx18"
  | addIndex _ => "fx1e"
  | setGlyph _ => "fx29"
  | storeDecimal _ => "fx33"
  | storeRegisters _ => "fx55"
  | loadRegisters _ => "fx65"

/-- The operands of the instruction with the letters that stand for them. -/
@[simp] def operands : Instruction → List (Char × Nat)
  | clearScreen | ret => []
  | jump target | call target | setIndex target | jumpIndexed target => [('A', target.toNat)]
  | skip condition => condition.operands
  | setByte x byte | addByte x byte | random x byte => [('x', x), ('B', byte.toNat)]
  | arithmetic _ x y => [('x', x), ('y', y)]
  | draw x y rows => [('x', x), ('y', y), ('n', rows)]
  | getDelay x | waitForKey x | setDelay x | setSound x | addIndex x | setGlyph x | storeDecimal x
  | storeRegisters x | loadRegisters x => [('x', x)]

/-- The number that the pattern spells with the operands filled in. -/
def spelled (instruction : Instruction) : Nat :=
  Pattern.spell instruction.operands 0 instruction.pattern.toList

private theorem toNat_word_of_skip {condition : Condition} (fits : condition.Fits) :
    condition.word.toNat = (skip condition).spelled := by
  cases condition with
  | isByte x byte | isNotByte x byte =>
    have narrow := byte.toNat_lt
    simp only [Condition.Fits] at fits
    simp [Condition.word, spelled]
    omega
  | _ =>
    simp only [Condition.Fits] at fits
    simp [Condition.word, spelled]
    omega

/-- The word of an instruction fills in its pattern. -/
theorem toNat_word {instruction : Instruction} (fits : instruction.Fits) :
    instruction.word.toNat = instruction.spelled := by
  -- One side is a sum of shifted operands, the other one their digits in the order of the pattern.
  cases instruction with
  | clearScreen | ret => rfl
  | skip condition => exact toNat_word_of_skip fits
  | arithmetic operation x y =>
    cases operation <;>
    · simp only [Fits] at fits
      simp [word, Arithmetic.code, spelled]
      omega
  | setByte x byte | addByte x byte | random x byte =>
    have narrow := byte.toNat_lt
    simp only [Fits] at fits
    simp [word, spelled]
    omega
  | _ =>
    simp only [Fits] at fits
    simp [word, spelled]
    omega

section Words

theorem word_of_decodePlain {value : Nat} {instruction : Instruction}
    (decoded : decodePlain value = some instruction) : instruction.word = UInt16.ofNat value := by
  unfold decodePlain at decoded
  split at decoded <;> simp only [Option.some.injEq, reduceCtorEq] at decoded
  all_goals subst decoded; rfl

theorem word_of_decodeKey {x low : Nat} {instruction : Instruction}
    (decoded : decodeKey x low = some instruction) :
    instruction.word = UInt16.ofNat (low + 0xe000 + 0x100 * x) := by
  unfold decodeKey at decoded
  split at decoded <;> simp only [Option.some.injEq, reduceCtorEq] at decoded
  all_goals subst decoded; rfl

theorem word_of_decodeTransfer {x low : Nat} {instruction : Instruction}
    (decoded : decodeTransfer x low = some instruction) :
    instruction.word = UInt16.ofNat (low + 0xf000 + 0x100 * x) := by
  unfold decodeTransfer at decoded
  split at decoded <;> simp only [Option.some.injEq, reduceCtorEq] at decoded
  all_goals subst decoded; rfl

theorem word_of_decodeNumber {value : Nat} (bound : value < 0x10000) {instruction : Instruction}
    (decoded : decodeNumber value = some instruction) : instruction.word = UInt16.ofNat value := by
  simp only [decodeNumber] at decoded
  split at decoded
  case h_1 => exact word_of_decodePlain decoded
  case h_15 first =>
    rw [word_of_decodeKey decoded]
    congr 1
    omega
  case h_16 =>
    -- All smaller first digits are ruled out.
    have first : value / 0x1000 = 0xf := by
      simp only [imp_false] at *
      omega
    rw [word_of_decodeTransfer decoded]
    congr 1
    omega
  case h_9 first =>
    obtain ⟨operation, found, rfl⟩ := Option.map_eq_some_iff.mp decoded
    rw [word, Arithmetic.code_of_ofCode found]
    congr 1
    omega
  case h_6 first | h_10 first =>
    split at decoded <;> simp only [Option.some.injEq, reduceCtorEq] at decoded
    subst decoded
    simp only [word, Condition.word]
    congr 1
    omega
  all_goals
    obtain rfl := Option.some.inj decoded
    simp only [word, Condition.word, UInt16.toNat_ofNat', UInt8.toNat_ofNat']
    congr 1
    omega

/-- A decoded instruction spells the word that it was decoded from. -/
theorem word_of_decode {word : Word} {instruction : Instruction}
    (decoded : decode word = some instruction) : instruction.word = word :=
  (word_of_decodeNumber word.toNat_lt decoded).trans word.ofNat_toNat

private theorem decode_ofNat {value : Nat} (bound : value < 0x10000) :
    decode (UInt16.ofNat value) = decodeNumber value := by
  rw [decode, UInt16.toNat_ofNat', Nat.mod_eq_of_lt bound]

/-- What decoding cuts out of a first digit and an address. -/
private theorem cut_address {value : Nat} (first : Nat) {target : Word} (digit : first < 16)
    (fits : target.toNat < 0x1000) (same : value = 0x1000 * first + target.toNat) :
    decode (UInt16.ofNat value) = decodeNumber value ∧ value / 0x1000 = first ∧
      UInt16.ofNat (value % 0x1000) = target := by
  have rest : value % 0x1000 = target.toNat := by omega
  refine ⟨decode_ofNat (by omega), by omega, ?_⟩
  rw [rest, UInt16.ofNat_toNat]

/-- What decoding cuts out of a first digit, a register and a byte. -/
private theorem cut_byte {value x : Nat} (first : Nat) (byte : Byte) (digit : first < 16)
    (fits : x < 16) (same : value = 0x1000 * first + 0x100 * x + byte.toNat) :
    decode (UInt16.ofNat value) = decodeNumber value ∧ value / 0x1000 = first ∧
      value / 0x100 % 0x10 = x ∧ UInt8.ofNat (value % 0x100) = byte := by
  have narrow : byte.toNat < 0x100 := byte.toNat_lt
  have low : value % 0x100 = byte.toNat := by omega
  refine ⟨decode_ofNat (by omega), by omega, by omega, ?_⟩
  rw [low, UInt8.ofNat_toNat]

/-- What decoding cuts out of four digits. -/
private theorem cut_digits {value x y : Nat} (first last : Nat) (digit : first < 16)
    (fits : x < 16 ∧ y < 16 ∧ last < 16)
    (same : value = 0x1000 * first + 0x100 * x + 0x10 * y + last) :
    decode (UInt16.ofNat value) = decodeNumber value ∧ value / 0x1000 = first ∧
      value / 0x100 % 0x10 = x ∧ value / 0x10 % 0x10 = y ∧ value % 0x10 = last :=
  ⟨decode_ofNat (by omega), by omega, by omega, by omega, by omega⟩

private theorem decode_key (low : Nat) {x : Nat} (fits : x < 16) (short : low < 0x100) :
    decode (UInt16.ofNat (low + 0xe000 + 0x100 * x)) = decodeKey x low := by
  have first : (low + 0xe000 + 0x100 * x) / 0x1000 = 0xe := by omega
  have second : (low + 0xe000 + 0x100 * x) / 0x100 % 0x10 = x := by omega
  have rest : (low + 0xe000 + 0x100 * x) % 0x100 = low := by omega
  rw [decode_ofNat (by omega)]
  simp only [decodeNumber, first, second, rest]

private theorem decode_transfer (low : Nat) {x : Nat} (fits : x < 16) (short : low < 0x100) :
    decode (UInt16.ofNat (low + 0xf000 + 0x100 * x)) = decodeTransfer x low := by
  have first : (low + 0xf000 + 0x100 * x) / 0x1000 = 0xf := by omega
  have second : (low + 0xf000 + 0x100 * x) / 0x100 % 0x10 = x := by omega
  have rest : (low + 0xf000 + 0x100 * x) % 0x100 = low := by omega
  rw [decode_ofNat (by omega)]
  simp only [decodeNumber, first, second, rest]

private theorem decode_word_of_skip {condition : Condition} (fits : condition.Fits) :
    decode condition.word = some (skip condition) := by
  cases condition with
  | isByte x byte =>
    obtain ⟨decoded, first, second, rest⟩ := cut_byte 0x3 byte (by decide) fits rfl
    refine decoded.trans ?_
    simp only [decodeNumber, first, second, rest]
  | isNotByte x byte =>
    obtain ⟨decoded, first, second, rest⟩ := cut_byte 0x4 byte (by decide) fits rfl
    refine decoded.trans ?_
    simp only [decodeNumber, first, second, rest]
  | equal x y =>
    obtain ⟨decoded, first, second, third, last⟩ :=
      cut_digits 0x5 0 (by decide) ⟨fits.1, fits.2, by decide⟩ rfl
    refine decoded.trans ?_
    simp only [decodeNumber, first, second, third, last, ↓reduceIte]
  | notEqual x y =>
    obtain ⟨decoded, first, second, third, last⟩ :=
      cut_digits 0x9 0 (by decide) ⟨fits.1, fits.2, by decide⟩ rfl
    refine decoded.trans ?_
    simp only [decodeNumber, first, second, third, last, ↓reduceIte]
  | held x => exact decode_key 0x9e fits (by decide)
  | released x => exact decode_key 0xa1 fits (by decide)

/-- An instruction whose operands fit is decoded from its word. -/
theorem decode_word {instruction : Instruction} (fits : instruction.Fits) :
    decode instruction.word = some instruction := by
  cases instruction with
  | clearScreen | ret => rfl
  | jump target =>
    obtain ⟨decoded, first, rest⟩ := cut_address 0x1 (by decide) fits rfl
    refine decoded.trans ?_
    simp only [decodeNumber, first, rest]
  | call target =>
    obtain ⟨decoded, first, rest⟩ := cut_address 0x2 (by decide) fits rfl
    refine decoded.trans ?_
    simp only [decodeNumber, first, rest]
  | skip condition => exact decode_word_of_skip fits
  | setByte x byte =>
    obtain ⟨decoded, first, second, rest⟩ := cut_byte 0x6 byte (by decide) fits rfl
    refine decoded.trans ?_
    simp only [decodeNumber, first, second, rest]
  | addByte x byte =>
    obtain ⟨decoded, first, second, rest⟩ := cut_byte 0x7 byte (by decide) fits rfl
    refine decoded.trans ?_
    simp only [decodeNumber, first, second, rest]
  | arithmetic operation x y =>
    obtain ⟨decoded, first, second, third, last⟩ :=
      cut_digits 0x8 operation.code (by decide) ⟨fits.1, fits.2, operation.code_lt⟩ rfl
    refine decoded.trans ?_
    simp only [decodeNumber, first, second, third, last, Arithmetic.ofCode_code, Option.map_some]
  | setIndex target =>
    obtain ⟨decoded, first, rest⟩ := cut_address 0xa (by decide) fits rfl
    refine decoded.trans ?_
    simp only [decodeNumber, first, rest]
  | jumpIndexed target =>
    obtain ⟨decoded, first, rest⟩ := cut_address 0xb (by decide) fits rfl
    refine decoded.trans ?_
    simp only [decodeNumber, first, rest]
  | random x mask =>
    obtain ⟨decoded, first, second, rest⟩ := cut_byte 0xc mask (by decide) fits rfl
    refine decoded.trans ?_
    simp only [decodeNumber, first, second, rest]
  | draw x y rows =>
    obtain ⟨decoded, first, second, third, last⟩ := cut_digits 0xd rows (by decide) fits rfl
    refine decoded.trans ?_
    simp only [decodeNumber, first, second, third, last]
  | getDelay x => exact decode_transfer 0x07 fits (by decide)
  | waitForKey x => exact decode_transfer 0x0a fits (by decide)
  | setDelay x => exact decode_transfer 0x15 fits (by decide)
  | setSound x => exact decode_transfer 0x18 fits (by decide)
  | addIndex x => exact decode_transfer 0x1e fits (by decide)
  | setGlyph x => exact decode_transfer 0x29 fits (by decide)
  | storeDecimal x => exact decode_transfer 0x33 fits (by decide)
  | storeRegisters x => exact decode_transfer 0x55 fits (by decide)
  | loadRegisters x => exact decode_transfer 0x65 fits (by decide)

end Words

/-- Decoding is exactly the table of patterns: a word is decoded to the instruction whose pattern it fills
in, and there is one such pattern at most. -/
theorem decode_exact :
    (∀ instruction : Instruction, instruction.Fits →
      instruction.word.toNat = instruction.spelled) ∧
    (∀ (word : Word) (instruction : Instruction),
      decode word = some instruction ↔ instruction.Fits ∧ word = instruction.word) ∧
    (∀ left right : Instruction, left.Fits → right.Fits → left.word = right.word → left = right) ∧
    (∀ (left right : Word) (instruction : Instruction),
      decode left = some instruction → decode right = some instruction → left = right) ∧
    ∀ word : Word, decode word = none ↔
      ∀ instruction : Instruction, instruction.Fits → word.toNat ≠ instruction.spelled := by
  refine ⟨fun _ => toNat_word, ?_, ?_, ?_, ?_⟩
  · intro word instruction
    constructor
    · intro decoded
      exact ⟨fits_of_decode decoded, (word_of_decode decoded).symm⟩
    · rintro ⟨fits, rfl⟩
      exact decode_word fits
  · intro left right leftFits rightFits same
    have decoded := decode_word leftFits
    rw [same, decode_word rightFits] at decoded
    exact (Option.some.inj decoded).symm
  · intro left right instruction fromLeft fromRight
    exact (word_of_decode fromLeft).symm.trans (word_of_decode fromRight)
  · intro word
    constructor
    · intro unknown instruction fits same
      have equal : word = instruction.word := UInt16.toNat_inj.mp (same.trans (toNat_word fits).symm)
      rw [equal, decode_word fits] at unknown
      contradiction
    · intro unspelled
      cases decoded : decode word with
      | none => rfl
      | some instruction =>
        have fits := fits_of_decode decoded
        have equal := word_of_decode decoded
        exact absurd (equal ▸ toNat_word fits) (unspelled instruction fits)

end Instruction

end Chip8
