import Chip8.Instruction.Basic
import Chip8.Text.Column
import Chip8.Text.Numeral
import Chip8.Text.Record

namespace Chip8

/-- One operand of a line of assembly. -/
inductive Operand where
  | register (number : Nat)
  | byte (value : Byte)
  | address (value : Word)
  | rows (count : Nat)
  | symbol (name : String)
deriving DecidableEq

def Operand.text : Operand → String
  | register number => "v" ++ Numeral.upperHex number
  | byte value => "#" ++ Numeral.hex 2 value.toNat
  | address value => "$" ++ Numeral.hex 3 value.toNat
  | rows count => "#" ++ Numeral.hex 1 count
  | symbol name => name

/-- A line of assembly: a mnemonic and its operands. -/
structure Assembly where
  mnemonic : String
  operands : List Operand
deriving DecidableEq

/-- The mnemonic fills seven columns, also when nothing follows it. -/
def Assembly.text (assembly : Assembly) : String :=
  Column.left 7 assembly.mnemonic ++ ", ".intercalate (assembly.operands.map Operand.text)

def Condition.assembly : Condition → Assembly
  | isByte x byte => ⟨"se", [.register x, .byte byte]⟩
  | isNotByte x byte => ⟨"sne", [.register x, .byte byte]⟩
  | equal x y => ⟨"se", [.register x, .register y]⟩
  | notEqual x y => ⟨"sne", [.register x, .register y]⟩
  | held x => ⟨"skp", [.register x]⟩
  | released x => ⟨"sknp", [.register x]⟩

/-- The condition in record notation, as the instruction that tests it. -/
def Condition.describe : Condition → String
  | isByte x byte => Record.text "seb" [("B", Record.nat byte.toNat), ("x", Record.nat x)]
  | isNotByte x byte => Record.text "sneb" [("B", Record.nat byte.toNat), ("x", Record.nat x)]
  | equal x y => Record.text "se" [("y", Record.nat y), ("x", Record.nat x)]
  | notEqual x y => Record.text "sne" [("y", Record.nat y), ("x", Record.nat x)]
  | held x => Record.text "skp" [("x", Record.nat x)]
  | released x => Record.text "sknp" [("x", Record.nat x)]

namespace Instruction

def assembly : Instruction → Assembly
  | clearScreen => ⟨"cls", []⟩
  | ret => ⟨"ret", []⟩
  | jump target => ⟨"jp", [.address target]⟩
  | call target => ⟨"call", [.address target]⟩
  | skip condition => condition.assembly
  | setByte x byte => ⟨"ld", [.register x, .byte byte]⟩
  | addByte x byte => ⟨"add", [.register x, .byte byte]⟩
  | arithmetic operation x y => ⟨operation.mnemonic, [.register x, .register y]⟩
  | setIndex target => ⟨"ld", [.symbol "I", .address target]⟩
  | jumpIndexed target => ⟨"jp", [.register 0, .address target]⟩
  | random x mask => ⟨"rnd", [.register x, .byte mask]⟩
  | draw x y rows => ⟨"drw", [.register x, .register y, .rows rows]⟩
  | getDelay x => ⟨"ld", [.register x, .symbol "DT"]⟩
  | waitForKey x => ⟨"ld", [.register x, .symbol "K"]⟩
  | setDelay x => ⟨"ld", [.symbol "DT", .register x]⟩
  | setSound x => ⟨"ld", [.symbol "ST", .register x]⟩
  | addIndex x => ⟨"add", [.symbol "I", .register x]⟩
  | setGlyph x => ⟨"ld", [.symbol "F", .register x]⟩
  | storeDecimal x => ⟨"ld", [.symbol "B", .register x]⟩
  | storeRegisters x => ⟨"ld", [.symbol "[I]", .register x]⟩
  | loadRegisters x => ⟨"ld", [.register x, .symbol "[I]"]⟩

/-- The instruction as a line of assembly. -/
def text (instruction : Instruction) : String :=
  instruction.assembly.text

/-- The instruction in record notation. -/
def describe : Instruction → String
  | clearScreen => "cls"
  | ret => "ret"
  | jump target => Record.text "jp" [("A", Record.nat target.toNat)]
  | call target => Record.text "call" [("A", Record.nat target.toNat)]
  | skip condition => condition.describe
  | setByte x byte => Record.text "ldb" [("B", Record.nat byte.toNat), ("x", Record.nat x)]
  | addByte x byte => Record.text "addb" [("B", Record.nat byte.toNat), ("x", Record.nat x)]
  | arithmetic operation x y => Record.text operation.mnemonic [("y", Record.nat y), ("x", Record.nat x)]
  | setIndex target => Record.text "ldi" [("A", Record.nat target.toNat)]
  | jumpIndexed target => Record.text "jpr" [("A", Record.nat target.toNat)]
  | random x mask => Record.text "rnd" [("B", Record.nat mask.toNat), ("x", Record.nat x)]
  | draw x y rows =>
    Record.text "drw" [("y", Record.nat y), ("x", Record.nat x), ("n", Record.nat rows)]
  | getDelay x => Record.text "getdt" [("x", Record.nat x)]
  | waitForKey x => Record.text "waitk" [("x", Record.nat x)]
  | setDelay x => Record.text "setdt" [("x", Record.nat x)]
  | setSound x => Record.text "setst" [("x", Record.nat x)]
  | addIndex x => Record.text "addi" [("x", Record.nat x)]
  | setGlyph x => Record.text "font" [("x", Record.nat x)]
  | storeDecimal x => Record.text "bcd" [("x", Record.nat x)]
  | storeRegisters x => Record.text "stor" [("x", Record.nat x)]
  | loadRegisters x => Record.text "load" [("x", Record.nat x)]

end Instruction

end Chip8
