import Chip8.Proofs.Faults

namespace Chip8

/-- What an address some way behind another one reads. -/
theorem Memory.getElem?_toList_add (memory : Memory) (start : Word) (offset : Nat) :
    memory.toList[(start.toNat + offset) % 4096]? = some (memory.read (start + UInt16.ofNat offset)) :=
  getElem?_toList_of_read (Address.val_ofWord_add start offset)

namespace Machine

/-- Where the index stands after a block transfer that ended with the given register. -/
def indexPast (machine : Machine) (last : Register) : Nat :=
  if machine.dialect.advancesIndex then (machine.index.toNat + last.val + 1) % 65536
  else machine.index.toNat

theorem toNat_index_passIndex (machine : Machine) (last : Register) :
    (machine.passIndex last).index.toNat = machine.indexPast last := by
  have digit := last.isLt
  unfold passIndex indexPast
  cases machine.dialect.advancesIndex with
  | true =>
    simp only [↓reduceIte, UInt16.toNat_add, UInt16.toNat_ofNat']
    omega
  | false => simp

/-- The digits that are stored for a byte are its hundreds, tens and units. -/
theorem decimalDigits_eq (value : Byte) :
    ∃ hundreds tens units : Byte, decimalDigits value = [hundreds, tens, units] ∧
      hundreds.toNat ≤ 9 ∧ tens.toNat ≤ 9 ∧ units.toNat ≤ 9 ∧
      100 * hundreds.toNat + 10 * tens.toNat + units.toNat = value.toNat := by
  have bound := value.toNat_lt
  have hundreds : (value / 100).toNat = value.toNat / 100 := UInt8.toNat_div value 100
  have tens : (value / 10 % 10).toNat = value.toNat / 10 % 10 := by
    rw [UInt8.toNat_mod, UInt8.toNat_div]
    rfl
  have units : (value % 10).toNat = value.toNat % 10 := UInt8.toNat_mod value 10
  refine ⟨value / 100, value / 10 % 10, value % 10, rfl, ?_⟩
  omega

section Step

variable {machine : Machine} {x : Register} (random : Byte)

theorem holdsBlock_step_of_storeRegisters (storing : machine.next? = some (.storeRegisters x.val)) :
    machine.memory.HoldsBlock machine.index (machine.registers.toList.take (x.val + 1))
      (machine.step random).1.memory := by
  rw [memory_step_of_storeRegisters random storing, Registers.map_get_upTo]
  refine machine.memory.holdsBlock_writeBytes machine.index ?_
  have count := List.length_take_le (x.val + 1) machine.registers.toList
  omega

theorem holdsBlock_step_of_storeDecimal (storing : machine.next? = some (.storeDecimal x.val)) :
    machine.memory.HoldsBlock machine.index (decimalDigits (machine.registers.get x))
      (machine.step random).1.memory := by
  rw [memory_step_of_storeDecimal random storing]
  exact machine.memory.holdsBlock_writeBytes machine.index (by simp [decimalDigits])

theorem index_step_of_storeRegisters (storing : machine.next? = some (.storeRegisters x.val)) :
    (machine.step random).1.index.toNat = machine.indexPast x := by
  rw [step_of_next random storing]
  exact toNat_index_passIndex (machine.store ((Registers.upTo x).map machine.registers.get)).1 x

theorem index_step_of_loadRegisters (loading : machine.next? = some (.loadRegisters x.val)) :
    (machine.step random).1.index.toNat = machine.indexPast x := by
  rw [step_of_next random loading]
  exact toNat_index_passIndex machine x

theorem get_step_of_loadRegisters (loading : machine.next? = some (.loadRegisters x.val))
    (register : Register) :
    (machine.step random).1.registers.get register =
      if register ≤ x then machine.memory.read (machine.index + UInt16.ofNat register.val)
      else machine.registers.get register := by
  rw [step_of_next random loading]
  exact machine.counted.get_registers_loadRegisters x register

end Step

section HoldsBlock

variable {before : Memory} {bytes : List Byte} {later : Machine} {last register : Register} (random : Byte)

/-- A byte of a block that memory holds is loaded back. -/
theorem get_step_of_placed (held : before.HoldsBlock later.index bytes later.memory)
    (loading : later.next? = some (.loadRegisters last.val)) (le : register ≤ last)
    (inside : register.val < bytes.length)
    (high : Memory.programStart ≤ (later.index.toNat + register.val) % 4096) :
    some ((later.step random).1.registers.get register) = bytes[register.val]? := by
  rw [get_step_of_loadRegisters random loading, if_pos le, ← Memory.getElem?_toList_add]
  exact held.placed inside high

/-- Where memory has refused a byte of the block, its own one is loaded. -/
theorem get_step_of_protected (held : before.HoldsBlock later.index bytes later.memory)
    (loading : later.next? = some (.loadRegisters last.val)) (le : register ≤ last)
    (low : (later.index.toNat + register.val) % 4096 < Memory.programStart) :
    before.toList[(later.index.toNat + register.val) % 4096]? =
      some ((later.step random).1.registers.get register) := by
  have place : (Address.ofWord (later.index + UInt16.ofNat register.val)).val < Memory.programStart := by
    rwa [Address.val_ofWord_add]
  rw [get_step_of_loadRegisters random loading, if_pos le, Memory.getElem?_toList_add]
  exact congrArg some (held.kept (.inl place)).symm

end HoldsBlock

/-- Each byte of a transfer has its own place, and one that memory refuses moves no other. What was stored
is loaded back from the same index. -/
theorem transfers_exact (machine : Machine) (random : Byte) :
    let after := (machine.step random).1
    let place (offset : Nat) := (machine.index.toNat + offset) % 4096
    (∀ x : Register, machine.next? = some (.storeRegisters x.val) →
      machine.memory.HoldsBlock machine.index (machine.registers.toList.take (x.val + 1)) after.memory ∧
      after.index.toNat = machine.indexPast x ∧
      ∀ (later : Machine) (last : Register) (noise : Byte),
        later.memory = after.memory → later.index = machine.index →
        later.next? = some (.loadRegisters last.val) → last ≤ x →
        ∀ register ≤ last,
          let loaded := (later.step noise).1.registers.get register
          (0x200 ≤ place register.val → loaded = machine.registers.get register) ∧
            (place register.val < 0x200 → machine.memory.toList[place register.val]? = some loaded)) ∧
    (∀ x : Register, machine.next? = some (.storeDecimal x.val) →
      ∃ hundreds tens units : Byte, hundreds.toNat ≤ 9 ∧ tens.toNat ≤ 9 ∧ units.toNat ≤ 9 ∧
        100 * hundreds.toNat + 10 * tens.toNat + units.toNat = (machine.registers.get x).toNat ∧
        machine.memory.HoldsBlock machine.index [hundreds, tens, units] after.memory) ∧
    (∀ x : Register, machine.next? = some (.loadRegisters x.val) →
      (∀ register ≤ x,
        machine.memory.toList[place register.val]? = some (after.registers.get register)) ∧
      (∀ register, x < register → after.registers.get register = machine.registers.get register) ∧
      after.index.toNat = machine.indexPast x) := by
  intro after place
  refine ⟨fun x storing => ⟨?_, ?_, ?_⟩, fun x storing => ?_, fun x loading => ⟨?_, ?_, ?_⟩⟩
  · exact holdsBlock_step_of_storeRegisters random storing
  · exact index_step_of_storeRegisters random storing
  · intro later last noise sameMemory sameIndex loading shorter register le loaded
    have short : register ≤ x := Nat.le_trans le shorter
    have stored : (machine.registers.toList.take (x.val + 1))[register.val]? =
        some (machine.registers.get register) := by
      rw [← Registers.map_get_upTo, List.getElem?_map, Registers.getElem?_upTo short, Option.map_some]
    have inside := (List.getElem?_eq_some_iff.mp stored).1
    have held := holdsBlock_step_of_storeRegisters random storing
    -- The later machine points at the block again, so it looks where the bytes were stored.
    rw [← sameIndex, ← sameMemory] at held
    simp only [place, ← sameIndex]
    constructor
    · intro high
      exact Option.some.inj ((get_step_of_placed noise held loading le inside high).trans stored)
    · exact get_step_of_protected noise held loading le
  · obtain ⟨hundreds, tens, units, digits, first, second, third, sum⟩ :=
      decimalDigits_eq (machine.registers.get x)
    refine ⟨hundreds, tens, units, first, second, third, sum, ?_⟩
    rw [← digits]
    exact holdsBlock_step_of_storeDecimal random storing
  · intro register le
    rw [get_step_of_loadRegisters random loading, if_pos le]
    exact machine.memory.getElem?_toList_add machine.index register.val
  · intro register beyond
    rw [get_step_of_loadRegisters random loading, if_neg (Fin.not_le.mpr beyond)]
  · exact index_step_of_loadRegisters random loading

/-- A program that stores two registers from the last protected place on, and then loads two registers. -/
def restoringProgram : List Byte := [0x60, 0x0a, 0x61, 0x14, 0xa1, 0xff, 0xf1, 0x55, 0xf1, 0x65]

/-- The machine that is about to store. The dialect moves the index. -/
def aboutToStore : Machine :=
  let settings : Settings := { dialect := { advancesIndex := true } }
  ((Session.ofMachine (.loaded settings restoringProgram (by decide))).run (fun _ => 0) 3).machine

/-- The machine that has stored, has lost its registers since, and points at the block again. -/
def hasForgotten : Machine :=
  { (aboutToStore.step 0).1 with registers := .zero, index := aboutToStore.index }

theorem aboutToStore_state :
    aboutToStore.next? = some (.storeRegisters 1) ∧ aboutToStore.index = 0x1ff ∧
      aboutToStore.registers.get 1 = 20 ∧ aboutToStore.memory.toList[0x1ff]? = some 0 ∧
      hasForgotten.next? = some (.loadRegisters 1) := by
  decide +kernel

/-- The first register comes back as the protected byte, and the second one as it was stored. -/
theorem transfers_exact_restored :
    (hasForgotten.step 0).1.registers.get 0 = 0 ∧ (hasForgotten.step 0).1.registers.get 1 = 20 := by
  obtain ⟨storing, index, value, byte, loading⟩ := aboutToStore_state
  obtain ⟨stores, _, _⟩ := transfers_exact aboutToStore 0
  obtain ⟨_, _, restored⟩ := stores 1 storing
  have memory : hasForgotten.memory = (aboutToStore.step 0).1.memory := by rw [hasForgotten]
  have pointing : hasForgotten.index = aboutToStore.index := by rw [hasForgotten]
  have back := restored hasForgotten 1 0 memory pointing loading (Nat.le_refl _)
  rw [index] at back
  constructor
  · have kept := (back 0 (Fin.zero_le 1)).2 (by decide)
    exact Option.some.inj (kept.symm.trans byte)
  · exact ((back 1 (Nat.le_refl _)).1 (by decide)).trans value

end Machine

end Chip8
