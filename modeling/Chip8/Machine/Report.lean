import Chip8.Disassembly
import Chip8.Machine.Step

namespace Chip8.Machine

/-- What a traced machine prints before it takes a step. The escape sequences of the colours count as
columns. -/
def traceLine (machine : Machine) : String :=
  let count := Column.right 3 (Record.nat (machine.cycle + 1).toNat)
  Ink.dim.paint count ++ " " ++ Numeral.hex 3 machine.pc.toNat ++ ": " ++
    Column.left 36 (Palette.coloured.word machine.fetch)

/-- A register with its value. The last of each four ends its line. -/
def registerEntry (machine : Machine) (register : Register) : String :=
  "v" ++ Numeral.upperHex register.val ++ ": " ++ Numeral.hex 2 (machine.registers.get register).toNat ++
    " " ++ if register.val % 4 = 3 then "\n" else ""

/-- The registers, the timers and the number of steps, as a table. -/
def dump (machine : Machine) : String :=
  "PC: " ++ Numeral.hex 4 machine.pc.toNat ++
    ", SP: " ++ Numeral.hex 2 machine.stack.depth ++
    ", I: " ++ Numeral.hex 4 machine.index.toNat ++ "\n" ++
    String.join ((List.finRange 16).map machine.registerEntry) ++
    "DLY: " ++ Record.nat machine.timers.delay.toNat ++
    ", SND: " ++ Record.nat machine.timers.sound.toNat ++
    ", CYC: " ++ Column.right 6 (Record.nat machine.cycle.toNat) ++ "\n"

/-- The machine in record notation, without its memory and its screen. -/
def describe (machine : Machine) : String :=
  Record.openText "CPU" [
    ("flags", machine.settings.describe),
    ("stack", Record.list (machine.stack.live.map fun address => Record.nat address.toNat)),
    ("pc", Record.nat machine.pc.toNat),
    ("i", Record.nat machine.index.toNat),
    ("v", Record.list (machine.registers.toList.map fun value => Record.nat value.toNat)),
    ("timers", Record.text "Timers" [
      ("delay", Record.nat machine.timers.delay.toNat),
      ("sound", Record.nat machine.timers.sound.toNat)]),
    ("keys", Record.text "Keypad" [
      ("keys", Record.list (machine.keypad.held.toList.map Record.bool))]),
    ("cycle", Record.nat machine.cycle.toNat),
    ("faults", Record.list (machine.faults.faults.map Fault.describe))]

end Chip8.Machine
