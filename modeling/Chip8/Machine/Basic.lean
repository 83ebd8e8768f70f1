import Chip8.CallStack
import Chip8.FaultQueue
import Chip8.Keypad
import Chip8.Memory
import Chip8.Registers
import Chip8.Screen.Basic
import Chip8.Settings
import Chip8.Timers

namespace Chip8

structure Machine where
  settings : Settings := {}
  memory : Memory := .initial
  screen : Screen := .blank
  stack : CallStack := .empty
  /-- Address of the next instruction, never cut to the size of memory. -/
  pc : Word := UInt16.ofNat Memory.programStart
  /-- Where block transfers and sprites begin, never cut to the size of memory. -/
  index : Word := 0
  registers : Registers := .zero
  timers : Timers := {}
  keypad : Keypad := .empty
  /-- Steps taken so far. -/
  cycle : UInt64 := 0
  faults : FaultQueue := .empty
deriving DecidableEq

namespace Machine

/-- A machine that has not run yet. -/
def new (settings : Settings) : Machine := { settings }

def ofPreset (preset : Preset) : Machine :=
  new { dialect := preset.dialect }

def dialect (machine : Machine) : Dialect :=
  machine.settings.dialect

def load (machine : Machine) (program : List Byte) : Except Error Machine :=
  (machine.memory.load program).map fun memory => { machine with memory }

/-- Presses or releases a key, and reports whether that changed anything. -/
def setKey (machine : Machine) (key : Nat) (pressed : Bool) : Machine × Bool :=
  let (keypad, changed) := machine.keypad.set key pressed
  ({ machine with keypad }, changed)

/-- Reports whether the screen was drawn on since the last report. -/
def takeRedraw (machine : Machine) : Machine × Bool :=
  let (screen, drawn) := machine.screen.takeRedraw
  ({ machine with screen }, drawn)

/-- Empties the queue of unread faults. -/
def takeFaults (machine : Machine) : Machine × List Fault :=
  ({ machine with faults := .empty }, machine.faults.faults)

/-- Starts over with the same memory and the same settings, except that nothing waits. -/
def reset (machine : Machine) : Machine :=
  { settings := { machine.settings with waiting := false }, memory := machine.memory }

end Machine

end Chip8
