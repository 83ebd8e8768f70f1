import Chip8.Proofs.Environment
import Chip8.Proofs.FaultHistory
import Chip8.Proofs.Image
import Chip8.Proofs.KeySet

namespace Chip8

namespace Machine

/-- The same machine with other keys held. -/
def withKeypad (machine : Machine) (keypad : Keypad) : Machine :=
  { machine with keypad }

/-- The next step of a machine, if it does not look at a key that is different. -/
theorem step_withKeypad {machine : Machine} {keypad : Keypad} (random : Byte)
    (seen : ∀ key ∈ machine.nextKeysRead, keypad.isHeld key = machine.keypad.isHeld key) :
    (machine.withKeypad keypad).step random =
      (machine.step random).map (·.withKeypad keypad) id := by
  have stepped : (machine.within ⟨machine.dialect, keypad⟩).step random = _ :=
    step_within random (fun _ _ => rfl) seen
  have kept : (machine.step random).1.within ⟨machine.dialect, keypad⟩ =
      (machine.step random).1.withKeypad keypad := by
    rw [← machine.dialect_step random]
    rfl
  exact stepped.trans (congrArg (·, _) kept)

end Machine

namespace Session

/-- The same session with other keys held. -/
def withKeypad (session : Session) (keypad : Keypad) : Session :=
  session.withMachine (session.machine.withKeypad keypad)

theorem perform_setKey (session : Session) (key : Nat) (pressed : Bool) :
    session.perform (.setKey key pressed) =
      (session.withKeypad (session.machine.keypad.set key pressed).1,
        .flag (session.machine.keypad.set key pressed).2) := rfl

theorem keypad_run (session : Session) (noise : Noise) (count : Nat) :
    (session.run noise count).machine.keypad = session.machine.keypad :=
  part_run Machine.keypad Machine.keypad_step session noise count

/-- What a session prints and logs does not depend on the keys either. -/
theorem step_withKeypad {session : Session} {keypad : Keypad} (random : Byte)
    (seen : ∀ key ∈ session.machine.nextKeysRead,
      keypad.isHeld key = session.machine.keypad.isHeld key) :
    (session.withKeypad keypad).step random = (session.step random).withKeypad keypad := by
  have stepped := Machine.step_withKeypad random seen
  simp only [step, withKeypad, withMachine, stepped]
  rfl

theorem run_withKeypad {session : Session} {keypad : Keypad} (noise : Noise) (count : Nat)
    (seen : ∀ step < count, ∀ key ∈ (session.run noise step).machine.nextKeysRead,
      keypad.isHeld key = session.machine.keypad.isHeld key) :
    (session.withKeypad keypad).run noise count = (session.run noise count).withKeypad keypad := by
  apply run_related fun left right => right = left.withKeypad keypad
  case start => rfl
  case stepped =>
    rintro step bound other rfl
    have now := seen step bound
    rw [← keypad_run session noise step] at now
    exact step_withKeypad (noise step) now

/-- The log tells which faults a run has raised. -/
theorem raised_eq_of_warnings {left right : Session} {requests others : List Request}
    (start : left.warnings = right.warnings)
    (final : (left.performAll requests).warnings = (right.performAll others).warnings) :
    left.raised requests = right.raised others := by
  rw [warnings_performAll, warnings_performAll, start, List.append_cancel_left_eq] at final
  exact List.map_injective_iff.mpr (fun _ _ => LogRecord.raised.inj) final

/-- A key event may come before or after a run of steps that do not look at its key. -/
theorem setKey_run_comm (session : Session) (key : Nat) (pressed : Bool) (noise : Noise) (count : Nat)
    (unread : key < 16 → ∀ step < count, ∀ read ∈ (session.run noise step).machine.nextKeysRead,
      read.val ≠ key) :
    let early := session.perform (.setKey key pressed)
    let late := (session.run noise count).perform (.setKey key pressed)
    early.1.run noise count = late.1 ∧ early.2 = late.2 ∧
      early.1.raised [.run count noise] = session.raised [.run count noise] := by
  intro early late
  have seen : ∀ step < count, ∀ read ∈ (session.run noise step).machine.nextKeysRead,
      (session.machine.keypad.set key pressed).1.isHeld read = session.machine.keypad.isHeld read := by
    intro step bound read member
    by_cases inRange : key < 16
    · exact session.machine.keypad.isHeld_set_of_ne pressed (unread inRange step bound read member)
    · rw [session.machine.keypad.set_of_missing pressed inRange]
  have moved : early.1.run noise count = late.1 := by
    have whole := run_withKeypad noise count seen
    simp only [early, late, perform_setKey, keypad_run]
    exact whole
  refine ⟨moved, ?_, ?_⟩
  · simp only [early, late, perform_setKey, keypad_run]
  · apply raised_eq_of_warnings
    case start => rfl
    case final =>
      change (early.1.run noise count).warnings = (session.run noise count).warnings
      rw [moved]
      rfl

/-- A program that completes its last word to a skip before it runs it. The skip looks at key E, and what
follows it is no instruction. -/
def skippingProgram : List Byte :=
  [0x60, 0x9e, 0xa2, 0x07, 0xf0, 0x55, 0xe0, 0x00]

/-- Key 3 is pressed before the program runs or afterwards. -/
theorem setKey_run_comm_skippingProgram :
    let session := ofMachine (.loaded {} skippingProgram (by decide))
    let early := session.perform (.setKey 3 true)
    let late := (session.run (fun _ => 0) 5).perform (.setKey 3 true)
    early.1.run (fun _ => 0) 5 = late.1 ∧ early.2 = late.2 ∧
      early.1.raised [.run 5 fun _ => 0] = [.unrecognized 0x208 0] := by
  intro session early late
  have unread : ∀ step < 5, ∀ read ∈ (session.run (fun _ => 0) step).machine.nextKeysRead,
      read.val ≠ 3 := by decide +kernel
  obtain ⟨moved, answer, faults⟩ := setKey_run_comm session 3 true (fun _ => 0) 5 fun _ => unread
  exact ⟨moved, answer, faults.trans (by decide +kernel)⟩

end Session

end Chip8
