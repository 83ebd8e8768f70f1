import Chip8.Proofs.Operands

namespace Chip8

/-- A part of a machine, cut as fine as instructions write. The program counter is not among them, because
every instruction moves it. -/
inductive Part where
  | keypad
  | tracing
  | dialect
  | waiting
  | memory
  | pixels
  | latch
  | depth
  | slot (number : Fin 16)
  | index
  | delay
  | sound
  | register (name : Register)

/-- The part is the same in both machines. -/
def Part.SameIn (left right : Machine) : Part → Prop
  | keypad => left.keypad = right.keypad
  | tracing => left.settings.tracing = right.settings.tracing
  | dialect => left.dialect = right.dialect
  | waiting => left.settings.waiting = right.settings.waiting
  | memory => left.memory = right.memory
  | pixels => left.screen.pixels = right.screen.pixels
  | latch => left.screen.redraw = right.screen.redraw
  | depth => left.stack.depth = right.stack.depth
  | slot number => left.stack.slots[number] = right.stack.slots[number]
  | index => left.index = right.index
  | delay => left.timers.delay = right.timers.delay
  | sound => left.timers.sound = right.timers.sound
  | register name => left.registers.get name = right.registers.get name

/-- Whether the operation writes the flag register besides its result. -/
def Arithmetic.writesFlag (dialect : Dialect) : Arithmetic → Bool
  | copy => false
  | or | and | xor => dialect.clearsFlag
  | add | sub | shiftRight | subFrom | shiftLeft => true

namespace Instruction

/-- Whether the instruction waits for a key. -/
def waits : Instruction → Bool
  | waitForKey _ => true
  | _ => false

def calls : Instruction → Bool
  | call _ => true
  | _ => false

def returns : Instruction → Bool
  | ret => true
  | _ => false

def setsDelay : Instruction → Bool
  | setDelay _ => true
  | _ => false

def setsSound : Instruction → Bool
  | setSound _ => true
  | _ => false

/-- Whether the instruction stores into memory. -/
def stores : Instruction → Bool
  | storeDecimal _ | storeRegisters _ => true
  | _ => false

/-- Whether the instruction may write the index. -/
def movesIndex (dialect : Dialect) : Instruction → Bool
  | setIndex _ | addIndex _ | setGlyph _ => true
  | storeRegisters _ | loadRegisters _ => dialect.advancesIndex
  | _ => false

/-- Whether the instruction may write the register. -/
def writesRegister (dialect : Dialect) (register : Register) : Instruction → Bool
  | setByte x _ | addByte x _ | random x _ | getDelay x | waitForKey x => register.val == x
  | arithmetic operation x _ => register.val == x || register == .flag && operation.writesFlag dialect
  | draw .. => register == .flag
  | loadRegisters x => decide (register.val ≤ x)
  | _ => false

end Instruction

theorem Arithmetic.get_apply_of_unwritten {dialect : Dialect} {operation : Arithmetic} {x y other : Register}
    (registers : Registers) (notResult : other ≠ x)
    (notReport : other = .flag → operation.writesFlag dialect = false) :
    (operation.apply dialect x y registers).get other = registers.get other := by
  by_cases onFlag : other = .flag
  · have silent := notReport onFlag
    cases operation with
    | copy => exact Registers.get_set_of_ne registers _ notResult
    | or | and | xor =>
      have kept : dialect.clearsFlag = false := silent
      simp only [apply, bitwise, kept]
      exact Registers.get_set_of_ne registers _ notResult
    | add | sub | shiftRight | subFrom | shiftLeft => simp [writesFlag] at silent
  · exact get_apply_of_ne dialect operation registers notResult onFlag

namespace CallStack

/-- A call writes the first free slot and no other. -/
theorem getElem_slots_of_push? {stack grown : CallStack} {address : Word} {number : Fin 16}
    (pushed : stack.push? address = some grown) (other : number.val ≠ stack.depth) :
    grown.slots[number] = stack.slots[number] := by
  unfold push? at pushed
  split at pushed
  · obtain rfl := Option.some.inj pushed
    simp only [Fin.getElem_fin]
    exact Vector.getElem_set_ne _ _ other.symm
  · contradiction

/-- A return leaves all slots as they are. -/
theorem slots_of_pop? {stack rest : CallStack} {address : Word}
    (popped : stack.pop? = some (address, rest)) : rest.slots = stack.slots := by
  unfold pop? at popped
  split at popped
  · obtain ⟨_, rfl⟩ := Prod.mk.inj (Option.some.inj popped)
    rfl
  · contradiction

end CallStack

namespace Machine

/-- Whether the instruction may write the part of the machine. A call writes the first free slot of the
stack, and a return gives a slot up without writing it. -/
def writes (machine : Machine) (instruction : Instruction) : Part → Bool
  | .keypad | .tracing | .dialect => false
  | .waiting => instruction.waits
  | .memory => instruction.stores
  | .pixels | .latch => instruction.draws
  | .depth => instruction.calls || instruction.returns
  | .slot number => instruction.calls && number.val == machine.stack.depth
  | .index => instruction.movesIndex machine.dialect
  | .delay => instruction.setsDelay
  | .sound => instruction.setsSound
  | .register name => instruction.writesRegister machine.dialect name

section Execute

variable {machine : Machine} {part : Part}

theorem sameIn_setRegister {x : Register} {value : Byte}
    (untouched : ∀ name, part = .register name → name ≠ x) :
    part.SameIn (machine.setRegister x value).advance machine := by
  cases part with
  | register name => exact Registers.get_set_of_ne machine.registers value (untouched name rfl)
  | _ => rfl

theorem sameIn_ret (untouched : machine.writes .ret part = false) : part.SameIn machine.ret.1 machine := by
  unfold ret
  cases popped : machine.stack.pop? with
  | none => cases part <;> rfl
  | some entry =>
    cases part with
    | depth => contradiction
    | slot number => exact congrArg (·[number]) (CallStack.slots_of_pop? popped)
    | _ => rfl

theorem sameIn_call {target : Word} (untouched : machine.writes (.call target) part = false) :
    part.SameIn (machine.call target).1 machine := by
  unfold call
  cases pushed : machine.stack.push? machine.pc with
  | none => cases part <;> rfl
  | some grown =>
    cases part with
    | depth => contradiction
    | slot number =>
      have other : number.val ≠ machine.stack.depth := by simpa [writes, Instruction.calls] using untouched
      exact CallStack.getElem_slots_of_push? pushed other
    | _ => rfl

theorem sameIn_draw (x y : Register) {rows : Nat}
    (untouched : machine.writes (.draw x.val y.val rows) part = false) :
    part.SameIn (machine.draw x y rows) machine := by
  cases part with
  | pixels | latch => contradiction
  | register name =>
    have notFlag : name ≠ .flag := ne_of_beq_false untouched
    -- The flag register is cleared first, and written again with the report.
    refine (Registers.get_set_of_ne _ _ notFlag).trans ?_
    exact Registers.get_set_of_ne _ _ notFlag
  | _ => rfl

theorem sameIn_waitForKey (x : Register) (untouched : machine.writes (.waitForKey x.val) part = false) :
    part.SameIn (machine.waitForKey x) machine := by
  unfold waitForKey
  cases machine.keypad.lowestHeld with
  | none =>
    cases part with
    | waiting => contradiction
    | _ => rfl
  | some key =>
    cases part with
    | waiting => contradiction
    | register name =>
      have different : name ≠ x := fun same => ne_of_beq_false untouched (congrArg Fin.val same)
      exact Registers.get_set_of_ne _ _ different
    | _ => rfl

/-- A block transfer leaves the index where it is, in dialects that say so. -/
theorem index_passIndex (machine : Machine) (last : Register)
    (stays : machine.dialect.advancesIndex = false) : (machine.passIndex last).index = machine.index := by
  simp only [passIndex, stays]
  exact UInt16.add_zero machine.index

theorem sameIn_storeRegisters (last : Register)
    (untouched : machine.writes (.storeRegisters last.val) part = false) :
    part.SameIn (machine.storeRegisters last).1 machine := by
  cases part with
  | memory => contradiction
  | index =>
    let bytes := (Registers.upTo last).map machine.registers.get
    exact index_passIndex (machine.store bytes).1 last untouched
  | _ => rfl

theorem sameIn_loadRegisters (last : Register)
    (untouched : machine.writes (.loadRegisters last.val) part = false) :
    part.SameIn (machine.loadRegisters last) machine := by
  cases part with
  | index => exact index_passIndex machine last untouched
  | register name =>
    have beyond : ¬ name ≤ last := of_decide_eq_false untouched
    rw [Part.SameIn, get_registers_loadRegisters, if_neg beyond]
  | _ => rfl

theorem sameIn_arithmetic {operation : Arithmetic} (x y : Register)
    (untouched : machine.writes (.arithmetic operation x.val y.val) part = false) :
    part.SameIn { machine with registers := operation.apply machine.dialect x y machine.registers }
      machine := by
  cases part with
  | register name =>
    obtain ⟨notResult, notReport⟩ := Bool.or_eq_false_iff.mp untouched
    refine Arithmetic.get_apply_of_unwritten machine.registers ?_ ?_
    · exact fun same => ne_of_beq_false notResult (congrArg Fin.val same)
    · rintro rfl
      exact notReport
  | _ => rfl

theorem sameIn_execute (random : Byte) {instruction : Instruction} (fits : instruction.Fits)
    (untouched : machine.writes instruction part = false) :
    part.SameIn (machine.execute random instruction fits).1 machine := by
  cases instruction with
  | clearScreen =>
    cases part with
    | pixels | latch => contradiction
    | _ => rfl
  | ret => exact sameIn_ret untouched
  | call target => exact sameIn_call untouched
  | jump | skip | jumpIndexed => cases part <;> rfl
  | setByte x byte | addByte x byte | random x byte | getDelay x =>
    refine sameIn_setRegister ?_
    rintro name rfl rfl
    exact ne_of_beq_false untouched rfl
  | arithmetic operation x y => exact sameIn_arithmetic ⟨x, fits.1⟩ ⟨y, fits.2⟩ untouched
  | setIndex target | addIndex x | setGlyph x =>
    cases part with
    | index => contradiction
    | _ => rfl
  | draw x y rows => exact sameIn_draw ⟨x, fits.1⟩ ⟨y, fits.2.1⟩ untouched
  | waitForKey x => exact sameIn_waitForKey ⟨x, fits⟩ untouched
  | setDelay x =>
    cases part with
    | delay => contradiction
    | _ => rfl
  | setSound x =>
    cases part with
    | sound => contradiction
    | _ => rfl
  | storeDecimal x =>
    cases part with
    | memory => contradiction
    | _ => rfl
  | storeRegisters x => exact sameIn_storeRegisters ⟨x, fits⟩ untouched
  | loadRegisters x => exact sameIn_loadRegisters ⟨x, fits⟩ untouched

end Execute

/-- What an instruction leaves alone is left alone by its step, which goes on to tick the timers. -/
theorem sameIn_step (machine : Machine) (random : Byte) (part : Part)
    (untouched : ∀ instruction, machine.next? = some instruction →
      machine.writes instruction part = false) :
    part.SameIn (machine.step random).1 { machine with timers := machine.timers.tick } := by
  cases decoded : machine.next? with
  | none =>
    rw [step_of_unrecognized random decoded]
    cases part <;> rfl
  | some instruction =>
    have executed : part.SameIn (machine.counted.execute random instruction _).1 machine.counted :=
      sameIn_execute random (Instruction.fits_of_decode decoded) (untouched instruction decoded)
    rw [step_of_next random decoded]
    -- The tick comes last, so what the instruction has left of a timer is counted down on both sides.
    cases part with
    | delay | sound => exact congrArg Timers.countDown executed
    | _ => exact executed

/-- A step changes no part of the machine that the row of its instruction in `writes` does not have, a tick
of the timers aside. -/
theorem same_or_written_step (machine : Machine) (random : Byte) (part : Part) :
    part.SameIn (machine.step random).1 { machine with timers := machine.timers.tick } ∨
      ∃ instruction, machine.next? = some instruction ∧ machine.writes instruction part = true := by
  by_cases written :
      ∃ instruction, machine.next? = some instruction ∧ machine.writes instruction part = true
  · exact .inr written
  · refine .inl (machine.sameIn_step random part fun instruction decoded => ?_)
    exact Bool.eq_false_iff.mpr fun writing => written ⟨instruction, decoded, writing⟩

end Machine

end Chip8
