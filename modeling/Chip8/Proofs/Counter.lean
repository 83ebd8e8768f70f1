import Chip8.Proofs.Environment

namespace Chip8

theorem Register.ofDigit_of_lt {x : Nat} (bound : x < 16) : Register.ofDigit x = ⟨x, bound⟩ :=
  Fin.ext (Nat.mod_eq_of_lt bound)

theorem CallStack.getLast?_live_of_pop? {stack rest : CallStack} {address : Word}
    (popped : stack.pop? = some (address, rest)) : stack.live.getLast? = some address := by
  rw [live_of_pop? popped, List.getLast?_concat]

theorem CallStack.getLast?_live_of_empty {stack : CallStack} (empty : stack.depth = 0) :
    stack.live.getLast? = none := by
  rw [List.getLast?_eq_none_iff, ← List.length_eq_zero_iff, length_live, empty]

namespace Machine

/-- The value of the register that a digit names. -/
def valueAt (machine : Machine) (digit : Nat) : Nat :=
  (machine.registers.get (.ofDigit digit)).toNat

/-- What a skip asks for is the case. A key is named by the last digit of a register. -/
def Meets (machine : Machine) : Condition → Prop
  | .isByte x byte => machine.valueAt x = byte.toNat
  | .isNotByte x byte => machine.valueAt x ≠ byte.toNat
  | .equal x y => machine.valueAt x = machine.valueAt y
  | .notEqual x y => machine.valueAt x ≠ machine.valueAt y
  | .held x => machine.keypad.held.toList[machine.valueAt x % 16]? = some true
  | .released x => machine.keypad.held.toList[machine.valueAt x % 16]? = some false

instance (machine : Machine) : (condition : Condition) → Decidable (machine.Meets condition)
  | .isByte _ _ | .equal _ _ | .held _ | .released _ => inferInstanceAs (Decidable (_ = _))
  | .isNotByte _ _ | .notEqual _ _ => inferInstanceAs (Decidable (_ ≠ _))

/-- Where an instruction sends the program counter, before it is cut to sixteen bits. -/
def destination (machine : Machine) : Instruction → Nat
  | .jump target => target.toNat
  | .call target => if machine.stack.depth < 16 then target.toNat else machine.pc.toNat + 2
  | .ret => (machine.stack.live.getLast?.getD machine.pc).toNat + 2
  | .jumpIndexed target =>
    target.toNat + machine.valueAt (if machine.dialect.jumpsByDigit then target.toNat / 0x100 else 0)
  | .skip condition => machine.pc.toNat + if machine.Meets condition then 4 else 2
  | .waitForKey _ => machine.pc.toNat + if machine.keypad.heldKeys = [] then 0 else 2
  | _ => machine.pc.toNat + 2

/-- Where the next step sends the program counter. A word that spells nothing is passed over. -/
def nextDestination (machine : Machine) : Nat :=
  (machine.next?.map machine.destination).getD (machine.pc.toNat + 2)

section Destination

variable (machine : Machine)

theorem toNat_pc_advance : machine.advance.pc.toNat = (machine.pc.toNat + 2) % 65536 :=
  UInt16.toNat_add machine.pc 2

variable {machine}

theorem valueAt_eq {x : Nat} (bound : x < 16) :
    machine.valueAt x = (machine.registers.get ⟨x, bound⟩).toNat := by
  rw [valueAt, Register.ofDigit_of_lt bound]

theorem holds_iff_meets {condition : Condition} (fits : condition.Fits) :
    machine.holds condition fits = true ↔ machine.Meets condition := by
  cases condition with
  | isByte x byte | isNotByte x byte => simp [holds, Meets, valueAt_eq fits, UInt8.toNat_inj]
  | equal x y | notEqual x y => simp [holds, Meets, valueAt_eq fits.1, valueAt_eq fits.2, UInt8.toNat_inj]
  | held x | released x =>
    have key : machine.valueAt x % 16 = (machine.namedKey ⟨x, fits⟩).val :=
      congrArg (· % 16) (valueAt_eq fits)
    simp [holds, Meets, key, Keypad.isHeld]

theorem toNat_pc_ret :
    machine.ret.1.pc.toNat =
      ((machine.stack.live.getLast?.getD machine.pc).toNat + 2) % 65536 := by
  unfold ret
  cases popped : machine.stack.pop? with
  | none =>
    rw [CallStack.getLast?_live_of_empty (CallStack.pop?_eq_none_iff.mp popped)]
    exact machine.toNat_pc_advance
  | some entry =>
    obtain ⟨address, rest⟩ := entry
    rw [CallStack.getLast?_live_of_pop? popped]
    exact UInt16.toNat_add address 2

theorem toNat_pc_call (target : Word) :
    (machine.call target).1.pc.toNat =
      (if machine.stack.depth < 16 then target.toNat else machine.pc.toNat + 2) % 65536 := by
  unfold call
  cases pushed : machine.stack.push? machine.pc with
  | none =>
    have full := CallStack.push?_eq_none_iff.mp pushed
    rw [if_neg (by omega)]
    exact machine.toNat_pc_advance
  | some grown =>
    rw [if_pos (CallStack.depth_lt_of_push? pushed)]
    exact (Nat.mod_eq_of_lt target.toNat_lt).symm

theorem toNat_pc_jumpIndexed (target : Word) :
    (machine.jumpIndexed target).pc.toNat =
      (target.toNat + machine.valueAt (if machine.dialect.jumpsByDigit then target.toNat / 0x100 else 0)) %
        65536 := by
  have narrow := (machine.registers.get (jumpRegister machine.dialect target)).toNat_lt
  simp only [jumpIndexed, valueAt, ← jumpRegister_eq, Word.ofByte, UInt16.toNat_add, UInt16.toNat_ofNat']
  omega

theorem toNat_pc_skip {condition : Condition} (fits : condition.Fits) :
    (machine.skipIf (machine.holds condition fits)).pc.toNat =
      (machine.pc.toNat + if machine.Meets condition then 4 else 2) % 65536 := by
  have met : machine.holds condition fits = true ↔ machine.Meets condition := holds_iff_meets fits
  simp only [skipIf, met]
  split <;> exact UInt16.toNat_add machine.pc _

theorem toNat_pc_waitForKey (x : Register) :
    (machine.waitForKey x).pc.toNat =
      (machine.pc.toNat + if machine.keypad.heldKeys = [] then 0 else 2) % 65536 := by
  unfold waitForKey
  rw [Keypad.lowestHeld_eq_head?]
  cases machine.keypad.heldKeys with
  | nil => exact (Nat.mod_eq_of_lt machine.pc.toNat_lt).symm
  | cons key rest => exact machine.toNat_pc_advance

/-- An instruction sends the program counter to its destination. -/
theorem toNat_pc_execute (random : Byte) {instruction : Instruction} (fits : instruction.Fits) :
    (machine.execute random instruction fits).1.pc.toNat = machine.destination instruction % 65536 := by
  cases instruction with
  | ret => exact toNat_pc_ret
  | jump target => exact (Nat.mod_eq_of_lt target.toNat_lt).symm
  | call target => exact toNat_pc_call target
  | skip condition => exact toNat_pc_skip fits
  | jumpIndexed target => exact toNat_pc_jumpIndexed target
  | waitForKey x => exact toNat_pc_waitForKey ⟨x, fits⟩
  | _ => exact machine.toNat_pc_advance

end Destination

/-- A step moves the program counter once, to where its instruction sends it on the machine that the step
finds. Only the size of a word cuts it. -/
theorem pc_step (machine : Machine) (random : Byte) :
    (machine.step random).1.pc.toNat = machine.nextDestination % 65536 := by
  cases decoded : machine.next? with
  | none =>
    rw [step_of_unrecognized random decoded, nextDestination, decoded]
    exact machine.counted.toNat_pc_advance
  | some instruction =>
    rw [step_of_next random decoded, nextDestination, decoded, Option.map_some, Option.getD_some]
    refine (toNat_pc_execute random _).trans ?_
    cases instruction <;> rfl

end Machine

end Chip8
