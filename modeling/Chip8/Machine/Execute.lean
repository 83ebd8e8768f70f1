import Chip8.Instruction.Basic
import Chip8.Machine.Basic
import Chip8.Screen.Sprite

/-! What each instruction does. Every instruction moves the program counter itself. -/

namespace Chip8.Machine

/-- Moves on to the next instruction. -/
def advance (machine : Machine) : Machine :=
  { machine with pc := machine.pc + 2 }

/-- Moves past the next instruction if the condition holds, otherwise onto it. -/
def skipIf (machine : Machine) (condition : Bool) : Machine :=
  { machine with pc := machine.pc + if condition then 4 else 2 }

def setRegister (machine : Machine) (x : Register) (value : Byte) : Machine :=
  { machine with registers := machine.registers.set x value }

/-- The key that a register names. -/
def namedKey (machine : Machine) (x : Register) : Key :=
  Keypad.keyOfByte (machine.registers.get x)

/-- Whether a condition holds on the machine. -/
def holds (machine : Machine) : (condition : Condition) → condition.Fits → Bool
  | .isByte x byte, fits => machine.registers.get ⟨x, fits⟩ == byte
  | .isNotByte x byte, fits => machine.registers.get ⟨x, fits⟩ != byte
  | .equal x y, fits => machine.registers.get ⟨x, fits.1⟩ == machine.registers.get ⟨y, fits.2⟩
  | .notEqual x y, fits => machine.registers.get ⟨x, fits.1⟩ != machine.registers.get ⟨y, fits.2⟩
  | .held x, fits => machine.keypad.isHeld (machine.namedKey ⟨x, fits⟩)
  | .released x, fits => !machine.keypad.isHeld (machine.namedKey ⟨x, fits⟩)

/-- Goes back past the newest call. The stack holds the addresses of the calls themselves. -/
def ret (machine : Machine) : Machine × List Fault :=
  match machine.stack.pop? with
  | none => (machine.advance, [.stackUnderflow machine.pc])
  | some (pc, stack) => ({ machine with pc, stack }.advance, [])

/-- Remembers where it was called from and goes to the target. A call on a full stack is not taken. -/
def call (machine : Machine) (target : Word) : Machine × List Fault :=
  match machine.stack.push? machine.pc with
  | none => (machine.advance, [.stackOverflow machine.pc])
  | some stack => ({ machine with pc := target, stack }, [])

/-- The register that an indexed jump adds: the first one, or the one named by the third digit of the target
in dialects that say so. -/
def jumpRegister (dialect : Dialect) (target : Word) : Register :=
  if dialect.jumpsByDigit then ⟨target.toNat / 0x100 % 16, Nat.mod_lt _ (by decide)⟩
  else ⟨0, by decide⟩

def jumpIndexed (machine : Machine) (target : Word) : Machine :=
  let offset := machine.registers.get (jumpRegister machine.dialect target)
  { machine with pc := target + Word.ofByte offset }

/-- Draws a sprite of the given rows. The flag register is cleared before the origin is read, and tells
afterwards whether a lit pixel was turned dark. -/
def draw (machine : Machine) (x y : Register) (rows : Nat) : Machine :=
  let cleared := machine.registers.setFlag false
  let sprite := machine.memory.readBytes machine.index rows
  let (screen, collision) :=
    machine.screen.draw (cleared.get x) (cleared.get y) sprite machine.dialect.clipsSprites
  { machine with screen, registers := cleared.setFlag collision }.advance

/-- Takes the lowest key that is held. While none is held, the machine stays at the instruction and says that
it waits. -/
def waitForKey (machine : Machine) (x : Register) : Machine :=
  match machine.keypad.lowestHeld with
  | some key =>
    { machine.setRegister x (UInt8.ofNat key.val) with
      settings := { machine.settings with waiting := false } }.advance
  | none => { machine with settings := { machine.settings with waiting := true } }

/-- Stores bytes from the index on. Each byte that the memory refuses is a fault. -/
def store (machine : Machine) (bytes : List Byte) : Machine × List Fault :=
  let (memory, refused) := machine.memory.writeBytes machine.index bytes
  ({ machine with memory }, refused.map fun location => .protectedWrite machine.pc location.toWord)

/-- The decimal digits of a byte, hundreds first. -/
def decimalDigits (value : Byte) : List Byte :=
  [value / 100, value / 10 % 10, value % 10]

/-- Moves the index past a transfer that ended with the given register, in dialects that do so. -/
def passIndex (machine : Machine) (last : Register) : Machine :=
  { machine with
    index := machine.index + if machine.dialect.advancesIndex then UInt16.ofNat (last.val + 1) else 0 }

def storeDecimal (machine : Machine) (x : Register) : Machine × List Fault :=
  let (stored, raised) := machine.store (decimalDigits (machine.registers.get x))
  (stored.advance, raised)

def storeRegisters (machine : Machine) (last : Register) : Machine × List Fault :=
  let (stored, raised) := machine.store ((Registers.upTo last).map machine.registers.get)
  ((stored.passIndex last).advance, raised)

def loadRegisters (machine : Machine) (last : Register) : Machine :=
  let loaded := (Registers.upTo last).foldl
    (fun registers register =>
      registers.set register (machine.memory.read (machine.index + UInt16.ofNat register.val)))
    machine.registers
  ({ machine with registers := loaded }.passIndex last).advance

/-- Runs one instruction, and returns the faults that it raised, oldest first. -/
def execute (machine : Machine) (random : Byte) :
    (instruction : Instruction) → instruction.Fits → Machine × List Fault
  | .clearScreen, _ => ({ machine with screen := machine.screen.clear }.advance, [])
  | .ret, _ => machine.ret
  | .jump target, _ => ({ machine with pc := target }, [])
  | .call target, _ => machine.call target
  | .skip condition, fits => (machine.skipIf (machine.holds condition fits), [])
  | .setByte x byte, fits => ((machine.setRegister ⟨x, fits⟩ byte).advance, [])
  | .addByte x byte, fits =>
    ((machine.setRegister ⟨x, fits⟩ (machine.registers.get ⟨x, fits⟩ + byte)).advance, [])
  | .arithmetic operation x y, fits =>
    let registers := operation.apply machine.dialect ⟨x, fits.1⟩ ⟨y, fits.2⟩ machine.registers
    ({ machine with registers }.advance, [])
  | .setIndex target, _ => ({ machine with index := target }.advance, [])
  | .jumpIndexed target, _ => (machine.jumpIndexed target, [])
  | .random x mask, fits => ((machine.setRegister ⟨x, fits⟩ (random &&& mask)).advance, [])
  | .draw x y rows, fits => (machine.draw ⟨x, fits.1⟩ ⟨y, fits.2.1⟩ rows, [])
  | .getDelay x, fits => ((machine.setRegister ⟨x, fits⟩ machine.timers.delay).advance, [])
  | .waitForKey x, fits => (machine.waitForKey ⟨x, fits⟩, [])
  | .setDelay x, fits =>
    ({ machine with timers.delay := machine.registers.get ⟨x, fits⟩ }.advance, [])
  | .setSound x, fits =>
    ({ machine with timers.sound := machine.registers.get ⟨x, fits⟩ }.advance, [])
  | .addIndex x, fits =>
    ({ machine with index := machine.index + Word.ofByte (machine.registers.get ⟨x, fits⟩) }.advance, [])
  | .setGlyph x, fits =>
    let digit := Word.ofByte (machine.registers.get ⟨x, fits⟩)
    ({ machine with index := UInt16.ofNat Font.glyphHeight * digit }.advance, [])
  | .storeDecimal x, fits => machine.storeDecimal ⟨x, fits⟩
  | .storeRegisters x, fits => machine.storeRegisters ⟨x, fits⟩
  | .loadRegisters x, fits => (machine.loadRegisters ⟨x, fits⟩, [])

end Chip8.Machine
