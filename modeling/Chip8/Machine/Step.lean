import Chip8.Instruction.Decode
import Chip8.Machine.Execute

namespace Chip8.Machine

/-- The word at the program counter. -/
def fetch (machine : Machine) : Word :=
  machine.memory.readWord machine.pc

/-- The instruction at the program counter, if there is one. -/
def next? (machine : Machine) : Option Instruction :=
  Instruction.decode machine.fetch

/-- Runs what stands at the program counter. A word that spells nothing is a fault and is passed over. -/
def dispatch (machine : Machine) (random : Byte) : Machine × List Fault :=
  match decoded : machine.next? with
  | some instruction => machine.execute random instruction (Instruction.fits_of_decode decoded)
  | none => (machine.advance, [.unrecognized machine.pc machine.fetch])

/-- Runs one instruction and then ticks the timers. The faults of the step are returned, and also wait in
the queue. A step always succeeds. -/
def step (machine : Machine) (random : Byte) : Machine × List Fault :=
  let (executed, raised) := { machine with cycle := machine.cycle + 1 }.dispatch random
  ({ executed with faults := executed.faults.pushAll raised, timers := executed.timers.tick }, raised)

theorem dispatch_of_next {machine : Machine} {instruction : Instruction} (random : Byte)
    (decoded : machine.next? = some instruction) :
    machine.dispatch random =
      machine.execute random instruction (Instruction.fits_of_decode decoded) := by
  unfold dispatch
  split
  · rename_i found foundDecoded
    obtain rfl := Option.some.inj (foundDecoded.symm.trans decoded)
    rfl
  · rename_i missing
    simp [missing] at decoded

theorem dispatch_of_unrecognized {machine : Machine} (random : Byte) (unknown : machine.next? = none) :
    machine.dispatch random = (machine.advance, [.unrecognized machine.pc machine.fetch]) := by
  unfold dispatch
  split
  · rename_i found foundDecoded
    simp [foundDecoded] at unknown
  · rfl

end Chip8.Machine
