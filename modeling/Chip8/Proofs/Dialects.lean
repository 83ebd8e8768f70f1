import Chip8.Proofs.Environment
import Chip8.Proofs.Observation

namespace Chip8

namespace Machine

/-- The same machine in another dialect. -/
def withDialect (machine : Machine) (dialect : Dialect) : Machine :=
  { machine with settings := { machine.settings with dialect } }

/-- The machines are equal in everything but their dialects. -/
def AgreeExceptDialect (left right : Machine) : Prop :=
  right = left.withDialect right.dialect

/-- The next step of a machine for which the dialects do not matter. -/
theorem step_withDialect {machine : Machine} {dialect : Dialect} (random : Byte)
    (agree : Dialect.AgreeOn machine.disputedNext machine.dialect dialect) :
    (machine.withDialect dialect).step random =
      (machine.step random).map (·.withDialect dialect) id := by
  have stepped : (machine.within ⟨dialect, machine.keypad⟩).step random = _ :=
    step_within random agree fun _ _ => rfl
  have kept : (machine.step random).1.within ⟨dialect, machine.keypad⟩ =
      (machine.step random).1.withDialect dialect := by
    rw [← machine.keypad_step random]
    rfl
  exact stepped.trans (congrArg (·, _) kept)

end Machine

namespace Session

variable {left right : Session}

theorem machine_run_withDialect {dialect : Dialect}
    (start : right.machine = left.machine.withDialect dialect) (noise : Noise) (count : Nat)
    (undisputed : ∀ step < count,
      Dialect.AgreeOn (left.run noise step).machine.disputedNext left.machine.dialect dialect) :
    (right.run noise count).machine = (left.run noise count).machine.withDialect dialect := by
  apply run_related fun left right => right.machine = left.machine.withDialect dialect
  case start => exact start
  case stepped =>
    intro step bound other same
    have now := undisputed step bound
    rw [← dialect_run left noise step] at now
    have stepped := Machine.step_withDialect (noise step) now
    rw [← same] at stepped
    exact congrArg Prod.fst stepped

/-- Machines that differ in their dialects alone stay so while no executed instruction depends on a point on
which the dialects differ. -/
theorem agreeExceptDialect_run {left right : Session}
    (agree : left.machine.AgreeExceptDialect right.machine) (noise : Noise) (count : Nat)
    (undisputed : ∀ step < count,
      Dialect.AgreeOn (left.run noise step).machine.disputedNext left.machine.dialect
        right.machine.dialect) :
    (left.run noise count).machine.AgreeExceptDialect (right.run noise count).machine := by
  rw [Machine.AgreeExceptDialect, dialect_run]
  exact machine_run_withDialect agree noise count undisputed

/-- A program that shifts a register into itself, draws inside the screen, and jumps by one of two
registers that are equal, to a word that spells nothing. -/
def undisputedProgram : List Byte :=
  [0x62, 0x04, 0x60, 0x04, 0x81, 0x16, 0xa0, 0x00, 0xd0, 0x25, 0xb2, 0x0c]

/-- It runs on the dialect that does nothing and on the one that does everything. -/
theorem agreeExceptDialect_run_undisputedProgram :
    let left := ofMachine (.loaded {} undisputedProgram (by decide))
    let right := ofMachine (.loaded { dialect := .uniform true } undisputedProgram (by decide))
    (left.run (fun _ => 0) 7).machine.AgreeExceptDialect (right.run (fun _ => 0) 7).machine := by
  intro left right
  have agree : left.machine.AgreeExceptDialect right.machine := rfl
  exact agreeExceptDialect_run agree _ 7 (by decide +kernel)

end Session

end Chip8
