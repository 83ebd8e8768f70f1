import Chip8.Proofs.Interpreter

namespace Chip8

namespace Memory

theorem exists_load (memory : Memory) {program : List Byte} (fits : program.length ≤ programCapacity) :
    ∃ loaded, memory.load program = .ok loaded := by
  cases loaded : memory.load program with
  | error error =>
    have long := (load_eq_error_iff.mp loaded).1
    omega
  | ok memory => exact ⟨memory, rfl⟩

/-- Up to the end of the program an intact memory ends up like a new one, and keeps the rest. -/
theorem get_load_of_intact {memory loaded fresh : Memory} {program : List Byte} (intact : memory.Intact)
    (success : memory.load program = .ok loaded) (clean : initial.load program = .ok fresh)
    (location : Address) :
    loaded.get location =
      if location.val < programStart + program.length then fresh.get location
      else memory.get location := by
  rw [get_load location success, get_load location clean]
  by_cases low : location.val < programStart
  · have early : location.val < programStart + program.length := Nat.lt_add_right _ low
    rw [if_pos low, if_pos low, if_pos early]
    exact intact location low
  · rw [if_neg low, if_neg low]
    by_cases inside : location.val < programStart + program.length
    · have bound : location.val - programStart < program.length := by omega
      rw [if_pos inside, List.getElem?_eq_getElem bound, Option.getD_some, Option.getD_some]
    · have beyond : program.length ≤ location.val - programStart := by omega
      rw [if_neg inside, List.getElem?_eq_none beyond, Option.getD_none]

/-- A program that fills the program area leaves nothing of the past. -/
theorem load_eq_of_intact {memory loaded fresh : Memory} {program : List Byte} (intact : memory.Intact)
    (success : memory.load program = .ok loaded) (clean : initial.load program = .ok fresh)
    (full : program.length = programCapacity) : loaded = fresh := by
  refine ext_get fun location => ?_
  have inside : location.val < programStart + program.length := by
    have bound := location.isLt
    simp only [full, programCapacity, programStart, size]
    omega
  rw [get_load_of_intact intact success clean, if_pos inside]

end Memory

namespace Machine

/-- Loading a machine that was reset changes the memory that it kept, and nothing else of a new one. -/
theorem load_reset {machine : Machine} {program : List Byte} {memory : Memory}
    (success : machine.memory.load program = .ok memory) :
    machine.reset.load program =
      .ok { new { machine.settings with waiting := false } with memory } :=
  congrArg (Except.map _) success

end Machine

namespace Session

/-- A reset and a load leave nothing of the past but the memory behind the program. After a full program
nothing at all is left. -/
theorem reset_load_fresh (settings : Settings) (requests : List Request) {program : List Byte}
    (fits : program.length ≤ Memory.programCapacity) :
    let used := (ofMachine (.new settings)).performAll requests
    let unused := ofMachine (.new { used.machine.settings with waiting := false })
    ∃ restarted fresh,
      used.machine.reset.load program = .ok restarted ∧
      unused.machine.load program = .ok fresh ∧
      restarted = { fresh with memory := restarted.memory } ∧
      (∀ location, restarted.memory.get location =
        if location.val < Memory.programStart + program.length then fresh.memory.get location
        else used.machine.memory.get location) ∧
      (program.length = Memory.programCapacity → restarted = fresh ∧
        ∀ later,
          let left := used.performAll (.reset :: .load program :: later)
          let right := unused.performAll (.load program :: later)
          left.machine = right.machine ∧
            ∀ request, (left.perform request).2 = (right.perform request).2) := by
  intro used unused
  have intact : used.machine.memory.Intact := intact_performAll settings requests
  obtain ⟨reloaded, success⟩ := used.machine.memory.exists_load fits
  obtain ⟨clean, cleanSuccess⟩ := Memory.initial.exists_load fits
  have restarted : used.machine.reset.load program =
      .ok { unused.machine with memory := reloaded } := Machine.load_reset success
  have fresh : unused.machine.load program = .ok { unused.machine with memory := clean } :=
    congrArg (Except.map _) cleanSuccess
  refine ⟨_, _, restarted, fresh, rfl, Memory.get_load_of_intact intact success cleanSuccess, ?_⟩
  intro full
  obtain rfl := Memory.load_eq_of_intact intact success cleanSuccess full
  refine ⟨rfl, fun later => ?_⟩
  have alike : (used.performAll (.reset :: .load program :: later)).machine =
      (unused.performAll (.load program :: later)).machine := by
    rw [performAll_cons, performAll_cons, performAll_cons]
    refine machine_performAll_congr ?_ later
    rw [machine_perform_load fresh]
    exact machine_perform_load restarted
  exact ⟨alike, reply_congr alike⟩

/-- A program that stores a byte behind its own end. -/
def storingProgram : List Byte := [0x60, 0x2a, 0xa3, 0x00, 0xf0, 0x55]

/-- A machine that has run it. -/
def hasStored : Machine :=
  ((((Machine.loaded { tracing := true } storingProgram (by decide)).step 0).1.step 0).1.step 0).1

theorem machine_performAll_storingProgram :
    ((ofMachine (.new { tracing := true })).performAll
      [.load storingProgram, .step 0, .step 0, .step 0]).machine = hasStored := by
  rw [machine_performAll_load_new { tracing := true } (by decide), performAll_cons, performAll_cons,
    performAll_cons, performAll_nil, machine_perform_step, machine_perform_step, machine_perform_step]
  rfl

/-- A shorter program leaves the byte that was stored, and one that fills the program area does not. -/
theorem reset_load_fresh_stored :
    let used := (ofMachine (.new { tracing := true })).performAll
      [.load storingProgram, .step 0, .step 0, .step 0]
    let filling : List Byte := List.replicate 0xe00 0x12
    (∃ restarted, used.machine.reset.load [0x12, 0x00] = .ok restarted ∧
      restarted.memory.get ⟨0x300, by decide⟩ = 0x2a) ∧
    used.machine.reset.load filling =
      (Machine.new { used.machine.settings with waiting := false }).load filling := by
  intro used filling
  have filled : filling.length = Memory.programCapacity := List.length_replicate
  clear_value filling
  subst used
  constructor
  · obtain ⟨restarted, _, success, _, _, kept, _⟩ := reset_load_fresh { tracing := true }
      [.load storingProgram, .step 0, .step 0, .step 0]
      (by decide : ([0x12, 0x00] : List Byte).length ≤ Memory.programCapacity)
    have behind := kept ⟨0x300, by decide⟩
    rw [if_neg (by decide), machine_performAll_storingProgram] at behind
    exact ⟨restarted, success, behind.trans (by decide +kernel)⟩
  · obtain ⟨restarted, fresh, success, clean, _, _, whole⟩ := reset_load_fresh { tracing := true }
      [.load storingProgram, .step 0, .step 0, .step 0] (Nat.le_of_eq filled)
    obtain ⟨rfl, _⟩ := whole filled
    exact success.trans clean.symm

end Session

end Chip8
