import Chip8.Proofs.Blocks
import Chip8.Proofs.Effect
import Chip8.Proofs.Image

namespace Chip8

namespace Machine

/-- One fault for each byte that memory refuses, of so many bytes stored from the index on. -/
def protectedWrites (machine : Machine) (count : Nat) : List Fault :=
  (List.range count).filterMap fun offset =>
    let target := (machine.index.toNat + offset) % 4096
    if target < 0x200 then some (.protectedWrite machine.pc (UInt16.ofNat target)) else none

/-- The faults that an instruction raises on the machine, oldest first. -/
def faultsOf (machine : Machine) : Instruction → List Fault
  | .ret => if machine.stack.depth = 0 then [.stackUnderflow machine.pc] else []
  | .call _ => if machine.stack.depth = 16 then [.stackOverflow machine.pc] else []
  | .storeDecimal _ => machine.protectedWrites 3
  | .storeRegisters x => machine.protectedWrites (x + 1)
  | _ => []

/-- The faults that the next step raises, oldest first. -/
def nextFaults (machine : Machine) : List Fault :=
  (machine.next?.map machine.faultsOf).getD [.unrecognized machine.pc machine.fetch]

theorem raised_store (machine : Machine) (bytes : List Byte) :
    (machine.store bytes).2 = machine.protectedWrites bytes.length := by
  have raised : (machine.store bytes).2 =
      (Memory.refusals machine.index bytes.length).map fun location =>
        .protectedWrite machine.pc location.toWord := by
    rw [← Memory.refused_writeBytes machine.memory]
    rfl
  rw [raised, Memory.refusals, protectedWrites, List.filter_map, List.map_map, ← List.filterMap_eq_map,
    List.filterMap_filter]
  congr 1
  funext offset
  simp only [Function.comp_apply, Address.toWord, Address.val_ofWord_add, Memory.programStart,
    decide_eq_true_eq]

theorem raised_execute (machine : Machine) (random : Byte) {instruction : Instruction}
    (fits : instruction.Fits) :
    (machine.execute random instruction fits).2 = machine.faultsOf instruction := by
  cases instruction with
  | ret =>
    simp only [execute, ret, faultsOf]
    cases popped : machine.stack.pop? with
    | none => rw [if_pos (CallStack.pop?_eq_none_iff.mp popped)]
    | some entry => rw [if_neg (CallStack.depth_ne_zero_of_pop? popped)]
  | call target =>
    simp only [execute, call, faultsOf]
    cases pushed : machine.stack.push? machine.pc with
    | none => rw [if_pos (CallStack.push?_eq_none_iff.mp pushed)]
    | some grown => rw [if_neg (Nat.ne_of_lt (CallStack.depth_lt_of_push? pushed))]
  | storeDecimal x => exact machine.raised_store (decimalDigits (machine.registers.get ⟨x, fits⟩))
  | storeRegisters x =>
    have raised := machine.raised_store ((Registers.upTo ⟨x, fits⟩).map machine.registers.get)
    rw [List.length_map, Registers.length_upTo] at raised
    exact raised
  | _ => rfl

/-- A step raises the faults of its instruction, or the one of a word that spells nothing. -/
theorem raised_step (machine : Machine) (random : Byte) :
    (machine.step random).2 = machine.nextFaults := by
  cases decoded : machine.next? with
  | none =>
    rw [step_of_unrecognized random decoded, nextFaults, decoded]
    rfl
  | some instruction =>
    rw [step_of_next random decoded, nextFaults, decoded, Option.map_some, Option.getD_some]
    refine (machine.counted.raised_execute random _).trans ?_
    cases instruction <;> rfl

theorem unrecognized_mem_step_iff {machine : Machine} {random : Byte} {pc word : Word} :
    .unrecognized pc word ∈ (machine.step random).2 ↔
      machine.next? = none ∧ pc = machine.pc ∧ word = machine.fetch := by
  rw [raised_step, nextFaults]
  cases decoded : machine.next? with
  | none => simp
  | some instruction =>
    simp only [Option.map_some, Option.getD_some, reduceCtorEq, false_and, iff_false]
    cases instruction <;> simp [faultsOf, protectedWrites]

section Stores

variable {machine : Machine} {x : Register} {bytes : List Byte} (random : Byte)

theorem memory_step_of_storeDecimal (storing : machine.next? = some (.storeDecimal x.val)) :
    (machine.step random).1.memory =
      (machine.memory.writeBytes machine.index (decimalDigits (machine.registers.get x))).1 := by
  rw [step_of_next random storing]
  rfl

theorem memory_step_of_storeRegisters (storing : machine.next? = some (.storeRegisters x.val)) :
    (machine.step random).1.memory =
      (machine.memory.writeBytes machine.index ((Registers.upTo x).map machine.registers.get)).1 := by
  rw [step_of_next random storing]
  rfl

end Stores

end Machine

end Chip8
