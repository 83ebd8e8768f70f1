import Chip8.Machine.Step
import Chip8.Proofs.Bare.Canvas
import Chip8.Proofs.Bare.Machine

namespace Chip8.Bare

def advance (bare : Bare) : Bare :=
  { bare with pc := bare.pc + 2 }

def skipIf (bare : Bare) (condition : Bool) : Bare :=
  { bare with pc := bare.pc + if condition then 4 else 2 }

def register (bare : Bare) (x : Nat) : Checked Byte :=
  Checked.get bare.registers x

def setRegister (bare : Bare) (x : Nat) (value : Byte) : Checked Bare := do
  return { bare with registers := ← Checked.set bare.registers x value }

/-- Puts one or zero into the last register. -/
def setFlag (bare : Bare) (raised : Bool) : Checked Bare :=
  bare.setRegister 0xf raised.toUInt8

/-- The byte at the low twelve bits of an address. -/
def read (bare : Bare) (address : Word) : Checked Byte :=
  Checked.get bare.memory (address &&& 0x0fff).toNat

def readWord (bare : Bare) (address : Word) : Checked Word := do
  return Word.ofBytes (← bare.read address) (← bare.read (address + 1))

/-- Stores a byte at an offset from the index. Below the program area it is a fault instead. -/
def store (bare : Bare) (offset : Word) (byte : Byte) : Checked Bare :=
  let target := (bare.index + offset) &&& 0x0fff
  if target < 0x200 then .ok (bare.fault (.protectedWrite bare.pc target))
  else do return { bare with memory := ← Checked.set bare.memory target.toNat byte }

def isHeld (bare : Bare) (byte : Byte) : Checked Bool :=
  Checked.get bare.keys (byte &&& 0xf).toNat

def holds (bare : Bare) : Condition → Checked Bool
  | .isByte x byte => do return (← bare.register x) == byte
  | .isNotByte x byte => do return (← bare.register x) != byte
  | .equal x y => do return (← bare.register x) == (← bare.register y)
  | .notEqual x y => do return (← bare.register x) != (← bare.register y)
  | .held x => do bare.isHeld (← bare.register x)
  | .released x => do return !(← bare.isHeld (← bare.register x))

def ret (bare : Bare) : Checked Bare :=
  if bare.depth = 0 then .ok (bare.fault (.stackUnderflow bare.pc)).advance
  else do
    let depth ← Checked.sub bare.depth 1
    let pc ← Checked.get bare.stack depth
    return { bare with depth, pc }.advance

def call (bare : Bare) (target : Word) : Checked Bare :=
  if bare.depth = 16 then .ok (bare.fault (.stackOverflow bare.pc)).advance
  else do
    let stack ← Checked.set bare.stack bare.depth bare.pc
    let depth ← Checked.add UInt64.size bare.depth 1
    return { bare with stack, depth, pc := target }

/-- A bitwise result, after which some dialects set the last register to zero. -/
def bitwise (bare : Bare) (combine : Byte → Byte → Byte) (x y : Nat) : Checked Bare := do
  let stored ← bare.setRegister x (combine (← bare.register x) (← bare.register y))
  if bare.settings.dialect.clearsFlag then stored.setRegister 0xf 0 else return stored

/-- The flag is written first. Everything but a sum looks its operands up again after that. -/
def arithmetic (bare : Bare) (operation : Arithmetic) (x y : Nat) : Checked Bare :=
  let source := if bare.settings.dialect.shiftsSecond then y else x
  match operation with
  | .copy => do bare.setRegister x (← bare.register y)
  | .or => bare.bitwise (· ||| ·) x y
  | .and => bare.bitwise (· &&& ·) x y
  | .xor => bare.bitwise (· ^^^ ·) x y
  | .add => do
    let sum ← Checked.add UInt16.size (← bare.register x).toNat (← bare.register y).toNat
    let flagged ← bare.setFlag (255 < sum)
    flagged.setRegister x (UInt8.ofNat sum)
  | .sub => do
    let flagged ← bare.setFlag ((← bare.register y) < (← bare.register x))
    flagged.setRegister x ((← flagged.register x) - (← flagged.register y))
  | .shiftRight => do
    let flagged ← bare.setRegister 0xf ((← bare.register source) &&& 1)
    flagged.setRegister x ((← flagged.register source) >>> 1)
  | .subFrom => do
    let flagged ← bare.setFlag ((← bare.register x) < (← bare.register y))
    flagged.setRegister x ((← flagged.register y) - (← flagged.register x))
  | .shiftLeft => do
    let flagged ← bare.setRegister 0xf ((← bare.register source) >>> 7)
    flagged.setRegister x ((← flagged.register source) <<< 1)

def jumpIndexed (bare : Bare) (target : Word) : Checked Bare := do
  let chosen := if bare.settings.dialect.jumpsByDigit then (target >>> 8).toNat &&& 0xf else 0
  return { bare with pc := target + Word.ofByte (← bare.register chosen) }

/-- The rows of a sprite, read from the index on. -/
def sprite (bare : Bare) (rows : Nat) : Checked (List Byte) :=
  (List.range rows).mapM fun row => bare.read (bare.index + UInt16.ofNat row)

def draw (bare : Bare) (x y rows : Nat) : Checked Bare := do
  let cleared ← bare.setRegister 0xf 0
  let sprite ← cleared.sprite rows
  let left := (← cleared.register x).toNat % 64
  let top := (← cleared.register y).toNat % 32
  let dark : Canvas := ⟨cleared.pixels, false⟩
  let drawn ← dark.drawRows bare.settings.dialect.clipsSprites left top 0 sprite
  let flagged ← { cleared with pixels := drawn.pixels, redraw := true }.setFlag drawn.collision
  return flagged.advance

def waitForKey (bare : Bare) (x : Nat) : Checked Bare :=
  match bare.keys.findIdx? id with
  | some key => do
    let taken ← bare.setRegister x (UInt8.ofNat key)
    return { taken with settings := { bare.settings with waiting := false } }.advance
  | none => .ok { bare with settings := { bare.settings with waiting := true } }

def addIndex (bare : Bare) (x : Nat) : Checked Bare := do
  return { bare with index := bare.index + Word.ofByte (← bare.register x) }.advance

/-- Points the index at a glyph. The product is not allowed to leave sixteen bits. -/
def setGlyph (bare : Bare) (x : Nat) : Checked Bare := do
  let glyph ← Checked.mul UInt16.size 5 (← bare.register x).toNat
  return { bare with index := UInt16.ofNat glyph }.advance

/-- Moves the index past a transfer, in dialects that do so. -/
def passIndex (bare : Bare) (last : Nat) : Checked Bare :=
  if bare.settings.dialect.advancesIndex then do
    let count ← Checked.add UInt16.size last 1
    return { bare with index := bare.index + UInt16.ofNat count }
  else .ok bare

def storeDecimal (bare : Bare) (x : Nat) : Checked Bare := do
  let value ← bare.register x
  let stored ← bare.store 0 (value / 100)
  let stored ← stored.store 1 (value / 10 % 10)
  let stored ← stored.store 2 (value % 10)
  return stored.advance

def storeRegister (bare : Bare) (register : Nat) : Checked Bare := do
  bare.store (UInt16.ofNat register) (← bare.register register)

def storeRegisters (bare : Bare) (last : Nat) : Checked Bare := do
  let stored ← (List.range (last + 1)).foldlM storeRegister bare
  let passed ← stored.passIndex last
  return passed.advance

def loadRegister (bare : Bare) (register : Nat) : Checked Bare := do
  bare.setRegister register (← bare.read (bare.index + UInt16.ofNat register))

def loadRegisters (bare : Bare) (last : Nat) : Checked Bare := do
  let loaded ← (List.range (last + 1)).foldlM loadRegister bare
  let passed ← loaded.passIndex last
  return passed.advance

def execute (bare : Bare) (random : Byte) : Instruction → Checked Bare
  | .clearScreen =>
    .ok { bare with pixels := bare.pixels.map fun _ => 0, redraw := true }.advance
  | .ret => bare.ret
  | .jump target => .ok { bare with pc := target }
  | .call target => bare.call target
  | .skip condition => do return bare.skipIf (← bare.holds condition)
  | .setByte x byte => do return (← bare.setRegister x byte).advance
  | .addByte x byte => do return (← bare.setRegister x ((← bare.register x) + byte)).advance
  | .arithmetic operation x y => do return (← bare.arithmetic operation x y).advance
  | .setIndex target => .ok { bare with index := target }.advance
  | .jumpIndexed target => bare.jumpIndexed target
  | .random x mask => do return (← bare.setRegister x (random &&& mask)).advance
  | .draw x y rows => bare.draw x y rows
  | .getDelay x => do return (← bare.setRegister x bare.timers.delay).advance
  | .waitForKey x => bare.waitForKey x
  | .setDelay x => do return { bare with timers.delay := ← bare.register x }.advance
  | .setSound x => do return { bare with timers.sound := ← bare.register x }.advance
  | .addIndex x => bare.addIndex x
  | .setGlyph x => bare.setGlyph x
  | .storeDecimal x => bare.storeDecimal x
  | .storeRegisters x => bare.storeRegisters x
  | .loadRegisters x => bare.loadRegisters x

/-- What becomes of a step counter that is full. -/
inductive WhenFull where
  /-- The machine stops. -/
  | stop
  /-- The counter starts over at zero. -/
  | startOver
deriving DecidableEq

/-- Counts one more step. -/
def count (full : WhenFull) (cycle : Nat) : Checked Nat :=
  if cycle + 1 < UInt64.size then .ok (cycle + 1)
  else
    match full with
    | .stop => .error .counterFull
    | .startOver => .ok 0

/-- Counts, fetches, decodes, executes, and ticks the timers. -/
def step (full : WhenFull) (bare : Bare) (random : Byte) : Checked Bare := do
  let counted := { bare with cycle := ← count full bare.cycle }
  let word ← counted.readWord counted.pc
  let executed ← match Instruction.decode word with
    | some instruction => counted.execute random instruction
    | none => .ok (counted.fault (.unrecognized counted.pc word)).advance
  return { executed with timers := executed.timers.tick }

end Chip8.Bare
