import Chip8.Session

namespace Chip8

/-- Whether the instruction draws on the screen. -/
def Instruction.draws : Instruction → Bool
  | .clearScreen | .draw .. => true
  | _ => false

namespace Machine

/-- The machine at the moment when its next instruction runs: the step is already counted. -/
def counted (machine : Machine) : Machine :=
  { machine with cycle := machine.cycle + 1 }

/-- Calls and returns move the stack, and nothing else does. -/
theorem stack_execute (machine : Machine) (random : Byte) {instruction : Instruction}
    (fits : instruction.Fits) :
    (machine.execute random instruction fits).1.stack =
      match instruction with
      | .call _ => (machine.stack.push? machine.pc).getD machine.stack
      | .ret => (machine.stack.pop?.map Prod.snd).getD machine.stack
      | _ => machine.stack := by
  cases instruction with
  | ret =>
    simp only [execute, ret]
    split <;> rename_i popped <;> simp [popped, advance]
  | call =>
    simp only [execute, call]
    split <;> rename_i pushed <;> simp [pushed, advance]
  | waitForKey =>
    simp only [execute, waitForKey]
    split <;> rfl
  | _ => rfl

/-- A block load fills each register up to the given one from its own place in memory. -/
theorem get_registers_loadRegisters (machine : Machine) (last register : Register) :
    (machine.loadRegisters last).registers.get register =
      if register ≤ last then machine.memory.read (machine.index + UInt16.ofNat register.val)
      else machine.registers.get register := by
  obtain ⟨loaded, kept⟩ := Registers.get_foldl_set machine.registers (Registers.upTo last)
    (fun target => machine.memory.read (machine.index + UInt16.ofNat target.val)) register
  rw [Registers.mem_upTo] at loaded kept
  split
  · exact loaded ‹_›
  · exact kept ‹_›

/-- What becomes of the parts that an instruction changes in one way at most. A word that spells nothing is
no instruction. -/
structure Footprint (machine : Machine) (next : Option Instruction) (executed : Machine) : Prop where
  memory : ∃ bytes, executed.memory = (machine.memory.writeBytes machine.index bytes).1
  settings : executed.settings =
    match next with
    | some (.waitForKey _) => { machine.settings with waiting := machine.keypad.lowestHeld.isNone }
    | _ => machine.settings
  redraw : executed.screen.redraw = (next.any Instruction.draws || machine.screen.redraw)
  keypad : executed.keypad = machine.keypad
  cycle : executed.cycle = machine.cycle
  faults : executed.faults = machine.faults

theorem footprint_execute (machine : Machine) (random : Byte) {instruction : Instruction}
    (fits : instruction.Fits) :
    Footprint machine (some instruction) (machine.execute random instruction fits).1 := by
  cases instruction with
  | storeDecimal x =>
    exact ⟨⟨decimalDigits (machine.registers.get ⟨x, fits⟩), rfl⟩, rfl, rfl, rfl, rfl, rfl⟩
  | storeRegisters x =>
    exact ⟨⟨(Registers.upTo ⟨x, fits⟩).map machine.registers.get, rfl⟩, rfl, rfl, rfl, rfl, rfl⟩
  | ret =>
    simp only [execute, ret]
    split <;> exact ⟨⟨[], rfl⟩, rfl, rfl, rfl, rfl, rfl⟩
  | call =>
    simp only [execute, call]
    split <;> exact ⟨⟨[], rfl⟩, rfl, rfl, rfl, rfl, rfl⟩
  | waitForKey =>
    simp only [execute, waitForKey]
    split
    · rename_i held
      exact ⟨⟨[], rfl⟩, by simp [held, advance], rfl, rfl, rfl, rfl⟩
    · rename_i none
      exact ⟨⟨[], rfl⟩, by simp [none], rfl, rfl, rfl, rfl⟩
  | _ => exact ⟨⟨[], rfl⟩, rfl, rfl, rfl, rfl, rfl⟩

theorem footprint_dispatch (machine : Machine) (random : Byte) :
    Footprint machine machine.next? (machine.dispatch random).1 := by
  cases decoded : machine.next? with
  | none =>
    rw [dispatch_of_unrecognized random decoded]
    exact ⟨⟨[], rfl⟩, rfl, rfl, rfl, rfl, rfl⟩
  | some instruction =>
    rw [dispatch_of_next random decoded]
    exact machine.footprint_execute random _

@[simp] theorem next?_counted (machine : Machine) : machine.counted.next? = machine.next? := rfl

/-- A step is what its instruction does to the counted machine, and then a tick of the timers. -/
theorem step_of_next {machine : Machine} {instruction : Instruction} (random : Byte)
    (decoded : machine.next? = some instruction) :
    machine.step random =
      let executed := machine.counted.execute random instruction (Instruction.fits_of_decode decoded)
      ({ executed.1 with
          faults := executed.1.faults.pushAll executed.2
          timers := executed.1.timers.tick }, executed.2) := by
  have dispatched : { machine with cycle := machine.cycle + 1 }.dispatch random =
      machine.counted.execute random instruction (Instruction.fits_of_decode decoded) :=
    dispatch_of_next random (machine.next?_counted.trans decoded)
  rw [step, dispatched]

theorem step_of_unrecognized {machine : Machine} (random : Byte) (unknown : machine.next? = none) :
    machine.step random =
      let fault := Fault.unrecognized machine.pc machine.fetch
      ({ machine.counted.advance with
          faults := machine.faults.push fault
          timers := machine.timers.tick }, [fault]) := by
  have dispatched : { machine with cycle := machine.cycle + 1 }.dispatch random =
      (machine.counted.advance, [.unrecognized machine.pc machine.fetch]) :=
    dispatch_of_unrecognized random (machine.next?_counted.trans unknown)
  rw [step, dispatched]
  rfl

theorem stack_step (machine : Machine) (random : Byte) :
    (machine.step random).1.stack =
      match machine.next? with
      | some (.call _) => (machine.stack.push? machine.pc).getD machine.stack
      | some .ret => (machine.stack.pop?.map Prod.snd).getD machine.stack
      | _ => machine.stack := by
  cases decoded : machine.next? with
  | none => rw [step_of_unrecognized random decoded]; rfl
  | some instruction =>
    rw [step_of_next random decoded]
    refine (stack_execute machine.counted random _).trans ?_
    cases instruction <;> rfl

section Step

variable (machine : Machine) (random : Byte)

theorem exists_memory_step :
    ∃ bytes, (machine.step random).1.memory = (machine.memory.writeBytes machine.index bytes).1 :=
  (machine.counted.footprint_dispatch random).memory

theorem settings_step :
    (machine.step random).1.settings =
      match machine.next? with
      | some (.waitForKey _) => { machine.settings with waiting := machine.keypad.lowestHeld.isNone }
      | _ => machine.settings :=
  (machine.counted.footprint_dispatch random).settings

theorem dialect_step : (machine.step random).1.dialect = machine.dialect := by
  rw [dialect, settings_step]
  cases machine.next? with
  | none => rfl
  | some instruction => cases instruction <;> rfl

theorem redraw_step :
    (machine.step random).1.screen.redraw =
      (machine.next?.any Instruction.draws || machine.screen.redraw) :=
  (machine.counted.footprint_dispatch random).redraw

theorem keypad_step : (machine.step random).1.keypad = machine.keypad :=
  (machine.counted.footprint_dispatch random).keypad

theorem cycle_step : (machine.step random).1.cycle = machine.cycle + 1 :=
  (machine.counted.footprint_dispatch random).cycle

/-- The faults that a step returns are the ones that it adds to the queue. -/
theorem faults_step :
    (machine.step random).1.faults = machine.faults.pushAll (machine.step random).2 :=
  congrArg (FaultQueue.pushAll · _) (machine.counted.footprint_dispatch random).faults

end Step

end Machine

end Chip8
