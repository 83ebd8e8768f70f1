import Chip8.Instruction.Basic

/-! The first digit of a word selects a family of instructions. The families that share a first digit are
told apart by the last digit or by the last two. -/

namespace Chip8.Instruction

/-- The instructions without operands. -/
def decodePlain : Nat → Option Instruction
  | 0x00e0 => some .clearScreen
  | 0x00ee => some .ret
  | _ => none

/-- The key conditions, by the low byte of the word. -/
def decodeKey (x : Nat) : Nat → Option Instruction
  | 0x9e => some (.skip (.held x))
  | 0xa1 => some (.skip (.released x))
  | _ => none

/-- The transfers between a register and the rest of the machine, by the low byte of the word. -/
def decodeTransfer (x : Nat) : Nat → Option Instruction
  | 0x07 => some (.getDelay x)
  | 0x0a => some (.waitForKey x)
  | 0x15 => some (.setDelay x)
  | 0x18 => some (.setSound x)
  | 0x1e => some (.addIndex x)
  | 0x29 => some (.setGlyph x)
  | 0x33 => some (.storeDecimal x)
  | 0x55 => some (.storeRegisters x)
  | 0x65 => some (.loadRegisters x)
  | _ => none

/-- The instruction that a number of sixteen bits spells. -/
def decodeNumber (value : Nat) : Option Instruction :=
  let target : Word := UInt16.ofNat (value % 0x1000)
  let x := value / 0x100 % 0x10
  let y := value / 0x10 % 0x10
  let last := value % 0x10
  let byte : Byte := UInt8.ofNat (value % 0x100)
  match value / 0x1000 with
  | 0x0 => decodePlain value
  | 0x1 => some (.jump target)
  | 0x2 => some (.call target)
  | 0x3 => some (.skip (.isByte x byte))
  | 0x4 => some (.skip (.isNotByte x byte))
  | 0x5 => if last = 0 then some (.skip (.equal x y)) else none
  | 0x6 => some (.setByte x byte)
  | 0x7 => some (.addByte x byte)
  | 0x8 => (Arithmetic.ofCode last).map fun operation => .arithmetic operation x y
  | 0x9 => if last = 0 then some (.skip (.notEqual x y)) else none
  | 0xa => some (.setIndex target)
  | 0xb => some (.jumpIndexed target)
  | 0xc => some (.random x byte)
  | 0xd => some (.draw x y last)
  | 0xe => decodeKey x (value % 0x100)
  | _ => decodeTransfer x (value % 0x100)

/-- The instruction that a word spells. -/
def decode (word : Word) : Option Instruction :=
  decodeNumber word.toNat

theorem fits_of_decodePlain {value : Nat} {instruction : Instruction}
    (decoded : decodePlain value = some instruction) : instruction.Fits := by
  unfold decodePlain at decoded
  split at decoded <;> simp_all only [Option.some.injEq, reduceCtorEq]
  all_goals subst decoded; trivial

theorem fits_of_decodeKey {x value : Nat} {instruction : Instruction} (bound : x < 16)
    (decoded : decodeKey x value = some instruction) : instruction.Fits := by
  unfold decodeKey at decoded
  split at decoded <;> simp_all only [Option.some.injEq, reduceCtorEq]
  all_goals subst decoded; exact bound

theorem fits_of_decodeTransfer {x value : Nat} {instruction : Instruction} (bound : x < 16)
    (decoded : decodeTransfer x value = some instruction) : instruction.Fits := by
  unfold decodeTransfer at decoded
  split at decoded <;> simp_all only [Option.some.injEq, reduceCtorEq]
  all_goals subst decoded; exact bound

theorem fits_of_decodeNumber {value : Nat} {instruction : Instruction}
    (decoded : decodeNumber value = some instruction) : instruction.Fits := by
  have targetFits : (UInt16.ofNat (value % 0x1000)).toNat < 0x1000 := by
    simp only [UInt16.toNat_ofNat']
    omega
  have xFits : value / 0x100 % 0x10 < 16 := Nat.mod_lt _ (by decide)
  have yFits : value / 0x10 % 0x10 < 16 := Nat.mod_lt _ (by decide)
  have lastFits : value % 0x10 < 16 := Nat.mod_lt _ (by decide)
  simp only [decodeNumber] at decoded
  split at decoded
  case h_1 => exact fits_of_decodePlain decoded
  case h_15 => exact fits_of_decodeKey xFits decoded
  case h_16 => exact fits_of_decodeTransfer xFits decoded
  case h_9 =>
    obtain ⟨operation, _, rfl⟩ := Option.map_eq_some_iff.mp decoded
    exact ⟨xFits, yFits⟩
  case h_6 | h_10 =>
    split at decoded <;> simp only [Option.some.injEq, reduceCtorEq] at decoded
    subst decoded
    exact ⟨xFits, yFits⟩
  all_goals
    obtain rfl := Option.some.inj decoded
    simp_all only [Fits, Condition.Fits, and_self]

/-- A decoded instruction has no operand out of range. -/
theorem fits_of_decode {word : Word} {instruction : Instruction}
    (decoded : decode word = some instruction) : instruction.Fits :=
  fits_of_decodeNumber decoded

end Chip8.Instruction
