import Chip8.Proofs.Alike
import Chip8.Proofs.Image

namespace Chip8

/-- Two words that point at the same location: they agree in their low twelve bits. -/
def Word.SameLocation (left right : Word) : Prop :=
  left.toNat % 4096 = right.toNat % 4096

/-- A carry out of the low bits changes the high bits only, and so does wrapping at sixteen bits. -/
theorem Word.congruence_sameLocation : Word.Congruence Word.SameLocation where
  refl _ := rfl
  add := by
    intro left right same offset
    simp only [SameLocation, UInt16.toNat_add] at same ⊢
    omega
  location := by
    intro left right same
    exact Fin.ext same

/-- The machines agree except for the high bits of addresses, the slots of the stack that are not in
use, and the unread faults. -/
structure Machine.SameLocations (left right : Machine) : Prop
    extends Machine.Alike Word.SameLocation left right where
  settings : left.settings = right.settings
  screen : left.screen = right.screen
  cycle : left.cycle = right.cycle

namespace Machine.SameLocations

variable {left right : Machine}

theorem step (same : SameLocations left right) (random : Byte) :
    SameLocations (left.step random).1 (right.step random).1 where
  toAlike := (same.toAlike.step Word.congruence_sameLocation random).machine
  settings := by
    rw [settings_step, settings_step, same.next?_eq Word.congruence_sameLocation, same.settings,
      same.keypad]
  screen := by
    apply Screen.ext_redraw (same.toAlike.step Word.congruence_sameLocation random).machine.pixels
    rw [redraw_step, redraw_step, same.next?_eq Word.congruence_sameLocation, same.screen]
  cycle := by
    rw [cycle_step, cycle_step, same.cycle]

end Machine.SameLocations

namespace Session

variable {left right : Session}

theorem sameLocations_perform_of_host (same : left.machine.SameLocations right.machine)
    {request : Request} (host : request.isHost = true) :
    (left.perform request).1.machine.SameLocations (right.perform request).1.machine := by
  have alike := alike_perform_of_host Word.congruence_sameLocation same.toAlike host
  obtain ⟨before, settings, screen, cycle⟩ := same
  cases request with
  | step | run => contradiction
  | load program =>
    simp only [perform, load, Machine.load, before.memory]
    cases right.machine.memory.load program with
    | error error => exact ⟨before, settings, screen, cycle⟩
    | ok memory => exact ⟨{ before with memory := rfl }, settings, screen, cycle⟩
  | setSettings changed => exact ⟨alike, rfl, screen, cycle⟩
  | takeRedraw => exact ⟨alike, settings, congrArg (·.takeRedraw.1) screen, cycle⟩
  | reset =>
    exact ⟨alike, congrArg (fun settings => { settings with waiting := false }) settings, rfl, rfl⟩
  | _ => exact ⟨alike, settings, screen, cycle⟩

/-- Machines that differ in the high bits of addresses only take every step side by side, with faults that
correspond one to one. -/
theorem highBits_unobservable {left right : Session}
    (same : left.machine.SameLocations right.machine) :
    (∀ random,
      (left.machine.step random).1.SameLocations (right.machine.step random).1 ∧
        List.Forall₂ (Fault.Alike Word.SameLocation) (left.machine.step random).2
          (right.machine.step random).2) ∧
      ∀ requests,
        (left.performAll requests).machine.SameLocations (right.performAll requests).machine := by
  constructor
  · intro random
    exact ⟨same.step random, (same.toAlike.step Word.congruence_sameLocation random).faults⟩
  · apply performAll_related (fun left right => left.machine.SameLocations right.machine)
    case start => exact same
    case stepped => exact fun left right random same => same.step random
    case hosted => exact fun left right request host same => sameLocations_perform_of_host same host

/-- Inside a subroutine that stores digits across the start of the program area and returns, with the given
high bits in all addresses. -/
def drifted (high : Word) : Session :=
  let machine : Machine := .loaded {} [0xf0, 0x33, 0x00, 0xee] (by decide)
  ofMachine { machine with
    pc := high + 0x200
    index := high + 0x1fe
    stack := ⟨Vector.replicate 16 (high + 0x2fe), 1, by decide⟩ }

/-- The first step raises two faults, and the second pops a return address. -/
theorem highBits_unobservable_drifted :
    List.Forall₂ (Fault.Alike Word.SameLocation) ((drifted 0).machine.step 0).2
        ((drifted 0xf000).machine.step 0).2 ∧
      ((drifted 0).performAll [.run 2 fun _ => 0]).machine.SameLocations
        ((drifted 0xf000).performAll [.run 2 fun _ => 0]).machine := by
  have same : (drifted 0).machine.SameLocations (drifted 0xf000).machine := {
    dialect := rfl, memory := rfl, pixels := rfl, stack := .cons rfl .nil, pc := rfl, index := rfl
    registers := rfl, timers := rfl, keypad := rfl, settings := rfl, screen := rfl, cycle := rfl }
  obtain ⟨stepped, whole⟩ := highBits_unobservable same
  exact ⟨(stepped 0).2, whole _⟩

end Session

end Chip8
