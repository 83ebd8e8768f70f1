import Chip8.Arithmetic

namespace Chip8

/-- What a skip asks of the machine. -/
inductive Condition where
  | isByte (x : Nat) (byte : Byte)
  | isNotByte (x : Nat) (byte : Byte)
  | equal (x y : Nat)
  | notEqual (x y : Nat)
  /-- The key that the register names is held. -/
  | held (x : Nat)
  /-- The key that the register names is not held. -/
  | released (x : Nat)
deriving DecidableEq

/-- An operation with its operands. They may be larger than a word can spell; `Fits` singles out those that
have a word. -/
inductive Instruction where
  | clearScreen
  /-- Goes back to the newest call. -/
  | ret
  | jump (target : Word)
  | call (target : Word)
  /-- Passes over the next instruction when the condition holds. -/
  | skip (condition : Condition)
  | setByte (x : Nat) (byte : Byte)
  /-- Adds without a report of the carry. -/
  | addByte (x : Nat) (byte : Byte)
  | arithmetic (operation : Arithmetic) (x y : Nat)
  | setIndex (target : Word)
  /-- Jumps to the target plus a register. -/
  | jumpIndexed (target : Word)
  /-- A random byte of which the mask selects the bits. -/
  | random (x : Nat) (mask : Byte)
  | draw (x y rows : Nat)
  | getDelay (x : Nat)
  | waitForKey (x : Nat)
  | setDelay (x : Nat)
  | setSound (x : Nat)
  | addIndex (x : Nat)
  /-- Points the index at the glyph of a digit. -/
  | setGlyph (x : Nat)
  /-- Stores the three decimal digits of a register. -/
  | storeDecimal (x : Nat)
  /-- Stores the registers up to the given one. -/
  | storeRegisters (x : Nat)
  /-- Loads the registers up to the given one. -/
  | loadRegisters (x : Nat)
deriving DecidableEq

namespace Condition

def Fits : Condition → Prop
  | isByte x _ | isNotByte x _ | held x | released x => x < 16
  | equal x y | notEqual x y => x < 16 ∧ y < 16

def word : Condition → Word
  | isByte x byte => UInt16.ofNat (0x3000 + 0x100 * x + byte.toNat)
  | isNotByte x byte => UInt16.ofNat (0x4000 + 0x100 * x + byte.toNat)
  | equal x y => UInt16.ofNat (0x5000 + 0x100 * x + 0x10 * y)
  | notEqual x y => UInt16.ofNat (0x9000 + 0x100 * x + 0x10 * y)
  | held x => UInt16.ofNat (0xe09e + 0x100 * x)
  | released x => UInt16.ofNat (0xe0a1 + 0x100 * x)

end Condition

namespace Instruction

/-- Every operand has room in an instruction word: registers and row counts have four bits, and addresses
have twelve. -/
def Fits : Instruction → Prop
  | clearScreen | ret => True
  | jump target | call target | setIndex target | jumpIndexed target => target.toNat < 0x1000
  | skip condition => condition.Fits
  | setByte x _ | addByte x _ | random x _ => x < 16
  | arithmetic _ x y => x < 16 ∧ y < 16
  | draw x y rows => x < 16 ∧ y < 16 ∧ rows < 16
  | getDelay x | waitForKey x | setDelay x | setSound x | addIndex x | setGlyph x | storeDecimal x
  | storeRegisters x | loadRegisters x => x < 16

/-- The word that spells an instruction whose operands fit. -/
def word : Instruction → Word
  | clearScreen => 0x00e0
  | ret => 0x00ee
  | jump target => UInt16.ofNat (0x1000 + target.toNat)
  | call target => UInt16.ofNat (0x2000 + target.toNat)
  | skip condition => condition.word
  | setByte x byte => UInt16.ofNat (0x6000 + 0x100 * x + byte.toNat)
  | addByte x byte => UInt16.ofNat (0x7000 + 0x100 * x + byte.toNat)
  | arithmetic operation x y => UInt16.ofNat (0x8000 + 0x100 * x + 0x10 * y + operation.code)
  | setIndex target => UInt16.ofNat (0xa000 + target.toNat)
  | jumpIndexed target => UInt16.ofNat (0xb000 + target.toNat)
  | random x mask => UInt16.ofNat (0xc000 + 0x100 * x + mask.toNat)
  | draw x y rows => UInt16.ofNat (0xd000 + 0x100 * x + 0x10 * y + rows)
  | getDelay x => UInt16.ofNat (0xf007 + 0x100 * x)
  | waitForKey x => UInt16.ofNat (0xf00a + 0x100 * x)
  | setDelay x => UInt16.ofNat (0xf015 + 0x100 * x)
  | setSound x => UInt16.ofNat (0xf018 + 0x100 * x)
  | addIndex x => UInt16.ofNat (0xf01e + 0x100 * x)
  | setGlyph x => UInt16.ofNat (0xf029 + 0x100 * x)
  | storeDecimal x => UInt16.ofNat (0xf033 + 0x100 * x)
  | storeRegisters x => UInt16.ofNat (0xf055 + 0x100 * x)
  | loadRegisters x => UInt16.ofNat (0xf065 + 0x100 * x)

end Instruction

end Chip8
