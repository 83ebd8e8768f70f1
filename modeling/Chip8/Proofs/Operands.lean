import Chip8.Proofs.Effect
import Chip8.Proofs.Image

/-! The flag register is written before differences and shifts read their operands for the result, so an
operand that is the flag register enters as the report. -/

namespace Chip8

namespace Arithmetic

/-- The operations that report on their result in the flag register. -/
def Reports (operation : Arithmetic) : Prop :=
  operation = add ∨ operation = sub ∨ operation = shiftRight ∨ operation = subFrom ∨
    operation = shiftLeft

/-- Whichever operand a shift moves. -/
def shifted {Operand : Type} (dialect : Dialect) (first second : Operand) : Operand :=
  if dialect.shiftsSecond then second else first

/-- The result that two operand values should have, in numbers below 256. -/
def result (dialect : Dialect) (operation : Arithmetic) (first second : Nat) : Nat :=
  match operation with
  | add => (first + second) % 256
  | sub => (256 + first - second) % 256
  | shiftRight => shifted dialect first second / 2
  | subFrom => (256 + second - first) % 256
  | shiftLeft => 2 * shifted dialect first second % 256
  | copy | or | and | xor => first

/-- The report on two operand values: a carry, the absence of a borrow, or the bit shifted out. -/
def report (dialect : Dialect) (operation : Arithmetic) (first second : Nat) : Nat :=
  match operation with
  | add => if 255 < first + second then 1 else 0
  | sub => if second < first then 1 else 0
  | shiftRight => shifted dialect first second % 2
  | subFrom => if first < second then 1 else 0
  | shiftLeft => shifted dialect first second / 128
  | copy | or | and | xor => 0

/-- An operand as it stands after the report was written. -/
def reread (report : Nat) (register : Register) (value : Nat) : Nat :=
  if register = .flag then report else value

/-- The early report does not spoil the result: no operand read after it is the flag register, or it happens
to make up for what it overwrote. -/
def Undisturbed (dialect : Dialect) (operation : Arithmetic) (x y : Register)
    (first second : Nat) : Prop :=
  let report := operation.report dialect first second
  match operation with
  | sub | subFrom => x = y ∨ ((x = .flag → first = report) ∧ (y = .flag → second = report))
  | shiftRight => shifted dialect x y = .flag → shifted dialect first second < 2
  | shiftLeft =>
    shifted dialect x y = .flag →
      shifted dialect first second % 128 = shifted dialect first second / 128
  | _ => True

private theorem toNat_toUInt8 (value : Bool) : value.toUInt8.toNat = if value then 1 else 0 := by
  cases value <;> rfl

private theorem toNat_lowBit (value : Byte) : (value &&& 1).toNat = value.toNat % 2 := by
  simp

private theorem toNat_highBit (value : Byte) : (value >>> 7).toNat = value.toNat / 128 := by
  simp [Nat.shiftRight_eq_div_pow]

private theorem toNat_half (value : Byte) : (value >>> 1).toNat = value.toNat / 2 := by
  simp [Nat.shiftRight_eq_div_pow]

private theorem toNat_double (value : Byte) : (value <<< 1).toNat = 2 * value.toNat % 256 := by
  simp [Nat.shiftLeft_eq, Nat.mul_comm]

private theorem toNat_difference (left right : Byte) :
    (left - right).toNat = (256 + left.toNat - right.toNat) % 256 := by
  have bound := right.toNat_lt
  rw [UInt8.toNat_sub]
  omega

/-- The operand that a shift moves is read from the register that it names. -/
private theorem get_shifted (dialect : Dialect) (registers : Registers) (x y : Register) :
    (registers.get (shifted dialect x y)).toNat =
      shifted dialect (registers.get x).toNat (registers.get y).toNat := by
  unfold shifted
  split <;> rfl

private theorem apply_shiftRight (dialect : Dialect) (registers : Registers) (x y : Register) :
    shiftRight.apply dialect x y registers =
      let flagged := registers.set .flag (registers.get (shifted dialect x y) &&& 1)
      flagged.set x (flagged.get (shifted dialect x y) >>> 1) := rfl

private theorem apply_shiftLeft (dialect : Dialect) (registers : Registers) (x y : Register) :
    shiftLeft.apply dialect x y registers =
      let flagged := registers.set .flag (registers.get (shifted dialect x y) >>> 7)
      flagged.set x (flagged.get (shifted dialect x y) <<< 1) := rfl

/-- Besides its result an operation writes the flag register only. -/
theorem get_apply_of_ne (dialect : Dialect) (operation : Arithmetic) (registers : Registers)
    {x y other : Register} (notResult : other ≠ x) (notFlag : other ≠ .flag) :
    (operation.apply dialect x y registers).get other = registers.get other := by
  cases operation with
  | or | and | xor =>
    simp only [apply, bitwise]
    split <;> simp [Registers.get_set, notResult, notFlag]
  | _ => simp [apply, Registers.setFlag, Registers.get_set, notResult, notFlag]

theorem flag_apply (dialect : Dialect) {operation : Arithmetic} (reports : operation.Reports)
    (registers : Registers) {x : Register} (y : Register) (notFlag : x ≠ .flag) :
    ((operation.apply dialect x y registers).get .flag).toNat =
      operation.report dialect (registers.get x).toNat (registers.get y).toNat := by
  have flagStays : Register.flag ≠ x := notFlag.symm
  rcases reports with rfl | rfl | rfl | rfl | rfl
  case inl | inr.inl | inr.inr.inr.inl =>
    simp [apply, Registers.setFlag, Registers.get_set, flagStays, report, toNat_toUInt8,
      UInt8.lt_iff_toNat_lt]
  case inr.inr.inl =>
    rw [apply_shiftRight, Registers.get_set_of_ne _ _ flagStays, Registers.get_set_self, toNat_lowBit,
      get_shifted]
    rfl
  case inr.inr.inr.inr =>
    rw [apply_shiftLeft, Registers.get_set_of_ne _ _ flagStays, Registers.get_set_self, toNat_highBit,
      get_shifted]
    rfl

/-- An operand after the report was written. -/
private theorem get_set_flag (registers : Registers) (register : Register) (value : Byte) :
    ((registers.set .flag value).get register).toNat =
      reread value.toNat register (registers.get register).toNat := by
  rw [Registers.get_set, reread]
  split <;> rfl

theorem get_apply_add (dialect : Dialect) (registers : Registers) (x y : Register) :
    ((add.apply dialect x y registers).get x).toNat =
      add.result dialect (registers.get x).toNat (registers.get y).toNat := by
  simp [apply, result]

/-- All but sums read their operands again after the report was written. -/
theorem get_apply_reread (dialect : Dialect) {operation : Arithmetic} (reports : operation.Reports)
    (late : operation ≠ add) (registers : Registers) (x y : Register) :
    let first := (registers.get x).toNat
    let second := (registers.get y).toNat
    let report := operation.report dialect first second
    ((operation.apply dialect x y registers).get x).toNat =
      operation.result dialect (reread report x first) (reread report y second) := by
  intro first second report
  rcases reports with rfl | rfl | rfl | rfl | rfl
  case inl => contradiction
  case inr.inl =>
    simp only [apply, Registers.setFlag, Registers.get_set_self, toNat_difference, get_set_flag,
      toNat_toUInt8, decide_eq_true_eq, UInt8.lt_iff_toNat_lt]
    rfl
  case inr.inr.inl =>
    rw [apply_shiftRight, Registers.get_set_self, toNat_half, get_shifted, get_set_flag, get_set_flag,
      toNat_lowBit, get_shifted]
    rfl
  case inr.inr.inr.inl =>
    simp only [apply, Registers.setFlag, Registers.get_set_self, toNat_difference, get_set_flag,
      toNat_toUInt8, decide_eq_true_eq, UInt8.lt_iff_toNat_lt]
    rfl
  case inr.inr.inr.inr =>
    rw [apply_shiftLeft, Registers.get_set_self, toNat_double, get_shifted, get_set_flag, get_set_flag,
      toNat_highBit, get_shifted]
    rfl

private theorem report_lt {dialect : Dialect} {operation : Arithmetic} {first second : Nat}
    (firstByte : first < 256) (secondByte : second < 256) :
    operation.report dialect first second < 2 := by
  have shiftedByte : shifted dialect first second < 256 := by
    unfold shifted
    split <;> assumption
  cases operation with
  | add | sub | subFrom =>
    simp only [report]
    split <;> decide
  | _ =>
    simp only [report]
    omega

private theorem shifted_reread (dialect : Dialect) (report : Nat) (x y : Register) (first second : Nat) :
    shifted dialect (reread report x first) (reread report y second) =
      reread report (shifted dialect x y) (shifted dialect first second) := by
  unfold shifted
  split <;> rfl

/-- Both differences, seen as a difference of what is taken from and what is taken. -/
private theorem difference_reread_iff {report first second : Nat} {x y : Register}
    (bit : report < 2) (firstByte : first < 256) (secondByte : second < 256)
    (alike : x = y → first = second) :
    (256 + reread report x first - reread report y second) % 256 = (256 + first - second) % 256 ↔
      x = y ∨ ((x = .flag → first = report) ∧ (y = .flag → second = report)) := by
  unfold reread
  by_cases onFirst : x = .flag <;> by_cases onSecond : y = .flag
  · have same : first = second := alike (onFirst.trans onSecond.symm)
    simp [onFirst, onSecond, same]
  · have apart : Register.flag ≠ y := fun same => onSecond same.symm
    simp only [onFirst, onSecond, apart, ↓reduceIte, false_or, true_implies, false_implies, and_true]
    omega
  · simp only [onFirst, onSecond, ↓reduceIte, false_or, true_implies, false_implies, true_and]
    omega
  · simp [onFirst, onSecond]

/-- A late reading gives the right result in the undisturbed cases and in no other. -/
theorem result_reread_iff (dialect : Dialect) {operation : Arithmetic} (reports : operation.Reports)
    (late : operation ≠ add) {x y : Register} {first second : Nat} (firstByte : first < 256)
    (secondByte : second < 256) (alike : x = y → first = second) :
    let report := operation.report dialect first second
    operation.result dialect (reread report x first) (reread report y second) =
        operation.result dialect first second ↔
      operation.Undisturbed dialect x y first second := by
  intro report
  have bit : report < 2 := report_lt firstByte secondByte
  have shiftedByte : shifted dialect first second < 256 := by
    unfold shifted
    split <;> assumption
  rcases reports with rfl | rfl | rfl | rfl | rfl
  case inl => contradiction
  case inr.inl => exact difference_reread_iff bit firstByte secondByte alike
  case inr.inr.inl =>
    have reported : report = shifted dialect first second % 2 := rfl
    simp only [result, shifted_reread, Undisturbed]
    unfold reread
    by_cases onFlag : shifted dialect x y = .flag
    · simp only [onFlag, ↓reduceIte, true_implies]
      omega
    · simp [onFlag]
  case inr.inr.inr.inl =>
    refine (difference_reread_iff bit secondByte firstByte fun same => (alike same.symm).symm).trans ?_
    exact or_congr eq_comm and_comm
  case inr.inr.inr.inr =>
    have reported : report = shifted dialect first second / 128 := rfl
    simp only [result, shifted_reread, Undisturbed]
    unfold reread
    by_cases onFlag : shifted dialect x y = .flag
    · simp only [onFlag, ↓reduceIte, true_implies]
      omega
    · simp [onFlag]

end Arithmetic

namespace Machine

/-- A step of arithmetic changes the registers as the operation says, and no others. -/
theorem registers_step_of_arithmetic {machine : Machine} {operation : Arithmetic} {x y : Register}
    (random : Byte) (decoded : machine.next? = some (.arithmetic operation x.val y.val)) :
    (machine.step random).1.registers = operation.apply machine.dialect x y machine.registers := by
  rw [step_of_next random decoded]
  rfl

/-- The report is about the values before the instruction. A result formed after it is right exactly when
the report does not disturb it. -/
theorem arithmetic_step (machine : Machine) (random : Byte) {operation : Arithmetic} (x y : Register)
    (reports : operation.Reports)
    (decoded : machine.next? = some (.arithmetic operation x.val y.val)) :
    let first := (machine.registers.get x).toNat
    let second := (machine.registers.get y).toNat
    let report := operation.report machine.dialect first second
    let after := (machine.step random).1.registers
    (x ≠ .flag → (after.get .flag).toNat = report) ∧
      (∀ other, other ≠ x → other ≠ .flag → after.get other = machine.registers.get other) ∧
      (operation = .add → (after.get x).toNat = operation.result machine.dialect first second) ∧
      (operation ≠ .add → (after.get x).toNat =
        operation.result machine.dialect (Arithmetic.reread report x first)
          (Arithmetic.reread report y second)) ∧
      ((after.get x).toNat = operation.result machine.dialect first second ↔
        operation.Undisturbed machine.dialect x y first second) := by
  intro first second report after
  have applied : after = operation.apply machine.dialect x y machine.registers :=
    registers_step_of_arithmetic random decoded
  have alike : x = y → first = second := fun same => by simp only [first, second, same]
  have sum (same : operation = .add) :
      (after.get x).toNat = operation.result machine.dialect first second := by
    subst same
    rw [applied]
    exact Arithmetic.get_apply_add machine.dialect machine.registers x y
  have later (late : operation ≠ .add) : (after.get x).toNat =
      operation.result machine.dialect (Arithmetic.reread report x first)
        (Arithmetic.reread report y second) := by
    rw [applied]
    exact Arithmetic.get_apply_reread machine.dialect reports late machine.registers x y
  refine ⟨fun notFlag => ?_, fun other notResult notFlag => ?_, sum, later, ?_⟩
  · rw [applied]
    exact Arithmetic.flag_apply machine.dialect reports machine.registers y notFlag
  · rw [applied]
    exact Arithmetic.get_apply_of_ne machine.dialect operation machine.registers notResult notFlag
  · by_cases late : operation = .add
    · subst late
      exact iff_of_true (sum rfl) trivial
    · rw [later late]
      exact Arithmetic.result_reread_iff machine.dialect reports late (UInt8.toNat_lt _)
        (UInt8.toNat_lt _) alike

/-- Ten less five, with the five in the flag register, is not five. -/
theorem arithmetic_step_ten_less_five :
    let machine : Machine :=
      { loaded {} [0x81, 0xf5] (by decide) with registers := (Registers.zero.set 1 10).set .flag 5 }
    ((machine.step 0).1.registers.get 1).toNat ≠ 5 := by
  intro machine right
  have first : (machine.registers.get 1).toNat = 10 := by rfl
  have second : (machine.registers.get .flag).toNat = 5 := by rfl
  have condition := (arithmetic_step machine 0 1 .flag (.inr (.inl rfl)) (by decide +kernel)).2.2.2.2
  rw [first, second] at condition
  have undisturbed := condition.mp right
  simp [Arithmetic.Undisturbed, Arithmetic.report, Register.flag] at undisturbed

end Machine

end Chip8
