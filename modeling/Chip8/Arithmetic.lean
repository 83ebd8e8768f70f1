import Chip8.Dialect
import Chip8.Registers

namespace Chip8

/-- An operation that takes two registers and leaves its result in the first. -/
inductive Arithmetic where
  | copy
  | or
  | and
  | xor
  | add
  | sub
  | shiftRight
  | subFrom
  | shiftLeft
deriving DecidableEq

namespace Arithmetic

/-- The digit that stands for the operation in an instruction word. -/
def code : Arithmetic → Nat
  | copy => 0x0
  | or => 0x1
  | and => 0x2
  | xor => 0x3
  | add => 0x4
  | sub => 0x5
  | shiftRight => 0x6
  | subFrom => 0x7
  | shiftLeft => 0xe

def ofCode : Nat → Option Arithmetic
  | 0x0 => some copy
  | 0x1 => some or
  | 0x2 => some and
  | 0x3 => some xor
  | 0x4 => some add
  | 0x5 => some sub
  | 0x6 => some shiftRight
  | 0x7 => some subFrom
  | 0xe => some shiftLeft
  | _ => none

def mnemonic : Arithmetic → String
  | copy => "ld"
  | or => "or"
  | and => "and"
  | xor => "xor"
  | add => "add"
  | sub => "sub"
  | shiftRight => "shr"
  | subFrom => "subn"
  | shiftLeft => "shl"

/-- A bitwise result, after which some dialects set the flag register to zero. -/
def bitwise (dialect : Dialect) (registers : Registers) (x : Register) (value : Byte) : Registers :=
  let stored := registers.set x value
  if dialect.clearsFlag then stored.set .flag 0 else stored

/-- The registers after the operation. The flag register is written before the result, so a result aimed at
it stays. -/
def apply (dialect : Dialect) (operation : Arithmetic) (x y : Register) (registers : Registers) :
    Registers :=
  let source := if dialect.shiftsSecond then y else x
  match operation with
  | copy => registers.set x (registers.get y)
  | or => bitwise dialect registers x (registers.get x ||| registers.get y)
  | and => bitwise dialect registers x (registers.get x &&& registers.get y)
  | xor => bitwise dialect registers x (registers.get x ^^^ registers.get y)
  | add =>
    let sum := (registers.get x).toNat + (registers.get y).toNat
    (registers.setFlag (255 < sum)).set x (UInt8.ofNat sum)
  -- Differences and shifts read their operands again, and then see the report in the flag register.
  | sub =>
    let flagged := registers.setFlag (registers.get y < registers.get x)
    flagged.set x (flagged.get x - flagged.get y)
  | shiftRight =>
    let flagged := registers.set .flag (registers.get source &&& 1)
    flagged.set x (flagged.get source >>> 1)
  | subFrom =>
    let flagged := registers.setFlag (registers.get x < registers.get y)
    flagged.set x (flagged.get y - flagged.get x)
  | shiftLeft =>
    let flagged := registers.set .flag (registers.get source >>> 7)
    flagged.set x (flagged.get source <<< 1)

@[simp] theorem ofCode_code (operation : Arithmetic) : ofCode operation.code = some operation := by
  cases operation <;> rfl

theorem code_lt (operation : Arithmetic) : operation.code < 16 := by
  cases operation <;> decide

end Arithmetic

end Chip8
