import Chip8.Proofs.Interpreter

/-! The dialect and the keys belong to the host. What an instruction does is the same in any two
environments that agree on what matters to it. -/

namespace Chip8

/-- A point on which interpreters disagree. -/
inductive Dialect.Point where
  | clearsFlag
  | shiftsSecond
  | advancesIndex
  | jumpsByDigit
  | clipsSprites
deriving DecidableEq

/-- What a dialect does on a point. -/
def Dialect.choice (dialect : Dialect) : Point → Bool
  | .clearsFlag => dialect.clearsFlag
  | .shiftsSecond => dialect.shiftsSecond
  | .advancesIndex => dialect.advancesIndex
  | .jumpsByDigit => dialect.jumpsByDigit
  | .clipsSprites => dialect.clipsSprites

/-- The dialects do the same on the point, if there is one. -/
def Dialect.AgreeOn (point : Option Dialect.Point) (first second : Dialect) : Prop :=
  ∀ disputed ∈ point, first.choice disputed = second.choice disputed

instance (point : Option Dialect.Point) (first second : Dialect) :
    Decidable (Dialect.AgreeOn point first second) := by
  unfold Dialect.AgreeOn
  infer_instance

namespace Arithmetic

/-- The point that matters to an operation on two registers. To shift a register into itself is the same
in every dialect. -/
def disputed : Arithmetic → Nat → Nat → Option Dialect.Point
  | or, _, _ | and, _, _ | xor, _, _ => some .clearsFlag
  | shiftRight, x, y | shiftLeft, x, y => if x = y then none else some .shiftsSecond
  | copy, _, _ | add, _, _ | sub, _, _ | subFrom, _, _ => none

theorem bitwise_congr {first second : Dialect} (same : first.clearsFlag = second.clearsFlag)
    (registers : Registers) (x : Register) (value : Byte) :
    bitwise first registers x value = bitwise second registers x value := by
  rw [bitwise, bitwise, same]

theorem apply_congr {first second : Dialect} (operation : Arithmetic) (x y : Register)
    (registers : Registers) (agree : Dialect.AgreeOn (operation.disputed x.val y.val) first second) :
    operation.apply first x y registers = operation.apply second x y registers := by
  -- A shift looks at the point only to tell two different registers apart.
  have source (shifting : operation.disputed x.val y.val =
      if x.val = y.val then none else some .shiftsSecond) :
      (if first.shiftsSecond then y else x) = if second.shiftsSecond then y else x := by
    by_cases equal : x.val = y.val
    · obtain rfl := Fin.ext equal
      rw [ite_self, ite_self]
    · rw [shifting, if_neg equal] at agree
      have same : first.shiftsSecond = second.shiftsSecond := agree .shiftsSecond rfl
      rw [same]
  cases operation with
  | copy | add | sub | subFrom => rfl
  | or | and | xor => exact bitwise_congr (agree .clearsFlag rfl) registers x _
  | shiftRight | shiftLeft => simp only [apply, source rfl]

end Arithmetic

namespace Sprite

/-- The box of a sprite with that many rows, eight pixels wide, reaches over the right or the bottom edge. -/
def CrossesEdge (rows : Nat) (x y : Byte) : Prop :=
  0 < rows ∧ (64 < x.toNat % 64 + 8 ∨ 32 < y.toNat % 32 + rows)

instance (rows : Nat) (x y : Byte) : Decidable (CrossesEdge rows x y) := by
  unfold CrossesEdge
  infer_instance

/-- A sprite inside the screen has nothing to cut off. -/
theorem landing_of_inside {sprite : Sprite} {x y : Byte} (inside : ¬ CrossesEdge sprite.length x y)
    (clip : Bool) : sprite.landing x y clip = sprite.landing x y false := by
  have kept (bit : Nat × Nat) (member : bit ∈ (List.range sprite.length).product (List.range 8)) :
      stays x y clip bit.1 bit.2 = stays x y false bit.1 bit.2 := by
    obtain ⟨row, column⟩ := bit
    obtain ⟨rowBound, columnBound⟩ : row < sprite.length ∧ column < 8 := by simpa using member
    simp only [CrossesEdge] at inside
    have right : x.toNat % 64 + column < 64 := by omega
    have bottom : y.toNat % 32 + row < 32 := by omega
    simp [stays, right, bottom]
  have plotted : sprite.plotted x y clip = sprite.plotted x y false :=
    List.filter_congr fun bit member => by rw [kept bit member]
  rw [landing_eq_map, landing_eq_map, plotted]

end Sprite

theorem Screen.draw_congr_clip (screen : Screen) {sprite : Sprite} {x y : Byte} {first second : Bool}
    (harmless : Sprite.CrossesEdge sprite.length x y → first = second) :
    screen.draw x y sprite first = screen.draw x y sprite second := by
  by_cases crossing : Sprite.CrossesEdge sprite.length x y
  · rw [harmless crossing]
  · rw [draw, draw, Sprite.landing_of_inside crossing first, Sprite.landing_of_inside crossing second]

section Draw

variable {x y rows : Nat}

theorem Instruction.x_lt_of_draw (fits : (draw x y rows).Fits) : x < 16 := fits.1

theorem Instruction.y_lt_of_draw (fits : (draw x y rows).Fits) : y < 16 := fits.2.1

end Draw

theorem Register.mod_lt (digit : Nat) : digit % 16 < 16 :=
  Nat.mod_lt digit (by decide)

/-- The register that the last hexadecimal digit of a number names. -/
def Register.ofDigit (digit : Nat) : Register :=
  ⟨digit % 16, mod_lt digit⟩

namespace Machine

/-- The point that matters to an instruction, if there is one. It matters to drawing only where the sprite
crosses an edge. -/
def disputed (machine : Machine) :
    (instruction : Instruction) → instruction.Fits → Option Dialect.Point
  | .arithmetic operation x y, _ => operation.disputed x y
  | .storeRegisters _, _ | .loadRegisters _, _ => some .advancesIndex
  | .jumpIndexed target, _ =>
    if machine.registers.get (.ofDigit 0) = machine.registers.get (.ofDigit (target.toNat / 0x100)) then
      none
    else some .jumpsByDigit
  | .draw x y rows, fits =>
    let originX := machine.origin ⟨x, Instruction.x_lt_of_draw fits⟩
    let originY := machine.origin ⟨y, Instruction.y_lt_of_draw fits⟩
    if Sprite.CrossesEdge rows originX originY then some .clipsSprites else none
  | _, _ => none

theorem fits_of_next {machine : Machine} {instruction : Instruction}
    (decoded : machine.next? = some instruction) : instruction.Fits :=
  Instruction.fits_of_decode decoded

/-- The point that matters to the next step. A word that spells nothing is passed over in every dialect. -/
def disputedNext (machine : Machine) : Option Dialect.Point :=
  machine.next?.pbind fun instruction decoded => machine.disputed instruction (fits_of_next decoded)

theorem disputedNext_of_next {machine : Machine} {instruction : Instruction}
    (decoded : machine.next? = some instruction) :
    machine.disputedNext = machine.disputed instruction (fits_of_next decoded) := by
  refine Option.ext fun point => ?_
  rw [disputedNext, Option.pbind_eq_some_iff]
  constructor
  · rintro ⟨found, foundDecoded, matters⟩
    obtain rfl := Option.some.inj (foundDecoded.symm.trans decoded)
    exact matters
  · exact fun matters => ⟨instruction, decoded, matters⟩

/-- The keys that an instruction looks at. A wait looks at all of them, and a condition on a key at the
one that its register names. -/
def keysRead (machine : Machine) : (instruction : Instruction) → instruction.Fits → List Key
  | .waitForKey _, _ => List.finRange 16
  | .skip (.held x), fits => [machine.namedKey ⟨x, fits⟩]
  | .skip (.released x), fits => [machine.namedKey ⟨x, fits⟩]
  | _, _ => []

/-- The keys that the next step looks at. A word that spells nothing looks at none. -/
def nextKeysRead (machine : Machine) : List Key :=
  (machine.next?.pmap machine.keysRead fun _ => fits_of_next).getD []

theorem nextKeysRead_of_next {machine : Machine} {instruction : Instruction}
    (decoded : machine.next? = some instruction) :
    machine.nextKeysRead = machine.keysRead instruction (fits_of_next decoded) := by
  have read : machine.next?.pmap machine.keysRead (fun _ => fits_of_next) =
      some (machine.keysRead instruction (fits_of_next decoded)) :=
    Option.pmap_eq_some_iff.mpr ⟨instruction, fits_of_next decoded, decoded, rfl⟩
  rw [nextKeysRead, read, Option.getD_some]

end Machine

/-- What the host decides about a machine and no instruction changes. -/
structure Environment where
  dialect : Dialect
  keypad : Keypad

namespace Machine

/-- The same machine in another environment. -/
def within (machine : Machine) (environment : Environment) : Machine :=
  { machine with
    settings := { machine.settings with dialect := environment.dialect }
    keypad := environment.keypad }

section Instructions

variable (machine : Machine) (environment : Environment)

@[simp] theorem dialect_within : (machine.within environment).dialect = environment.dialect := rfl

@[simp] theorem memory_within : (machine.within environment).memory = machine.memory := rfl

@[simp] theorem screen_within : (machine.within environment).screen = machine.screen := rfl

@[simp] theorem stack_within : (machine.within environment).stack = machine.stack := rfl

@[simp] theorem pc_within : (machine.within environment).pc = machine.pc := rfl

@[simp] theorem index_within : (machine.within environment).index = machine.index := rfl

@[simp] theorem registers_within : (machine.within environment).registers = machine.registers := rfl

@[simp] theorem keypad_within : (machine.within environment).keypad = environment.keypad := rfl

variable {machine environment} {dialect : Dialect}

theorem jumpRegister_eq (dialect : Dialect) (target : Word) :
    jumpRegister dialect target =
      .ofDigit (if dialect.jumpsByDigit then target.toNat / 0x100 else 0) := by
  unfold jumpRegister
  split <;> rfl

theorem get_jumpRegister (target : Word) (fits : (Instruction.jumpIndexed target).Fits)
    (agree : Dialect.AgreeOn (machine.disputed (.jumpIndexed target) fits) machine.dialect dialect) :
    machine.registers.get (jumpRegister dialect target) =
      machine.registers.get (jumpRegister machine.dialect target) := by
  by_cases equal : machine.registers.get (.ofDigit 0) =
      machine.registers.get (.ofDigit (target.toNat / 0x100))
  · have either (dialect : Dialect) :
        machine.registers.get (jumpRegister dialect target) = machine.registers.get (.ofDigit 0) := by
      rw [jumpRegister_eq]
      split
      · exact equal.symm
      · rfl
    rw [either, either]
  · simp only [disputed, if_neg equal] at agree
    have same : machine.dialect.jumpsByDigit = dialect.jumpsByDigit := agree .jumpsByDigit rfl
    rw [jumpRegister, jumpRegister, same]

theorem screen_draw_congr (x y : Register) (rows : Nat)
    (fits : (Instruction.draw x.val y.val rows).Fits)
    (agree : Dialect.AgreeOn (machine.disputed (.draw x.val y.val rows) fits) machine.dialect dialect) :
    machine.screen.draw ((machine.registers.setFlag false).get x) ((machine.registers.setFlag false).get y)
        (machine.memory.readBytes machine.index rows) dialect.clipsSprites =
      machine.screen.draw ((machine.registers.setFlag false).get x)
        ((machine.registers.setFlag false).get y) (machine.memory.readBytes machine.index rows)
        machine.dialect.clipsSprites := by
  refine Screen.draw_congr_clip machine.screen fun crossing => ?_
  rw [Memory.length_readBytes, origin_eq, origin_eq] at crossing
  simp only [disputed, Fin.eta, if_pos crossing] at agree
  exact (agree .clipsSprites rfl).symm

theorem ret_within :
    (machine.within environment).ret = machine.ret.map (·.within environment) id := by
  simp only [ret, stack_within]
  cases machine.stack.pop? <;> rfl

theorem call_within (target : Word) :
    (machine.within environment).call target =
      (machine.call target).map (·.within environment) id := by
  simp only [call, stack_within, pc_within]
  cases machine.stack.push? machine.pc <;> rfl

theorem waitForKey_within (x : Register) {fits : (Instruction.waitForKey x.val).Fits}
    (seen : ∀ key ∈ machine.keysRead (.waitForKey x.val) fits,
      environment.keypad.isHeld key = machine.keypad.isHeld key) :
    (machine.within environment).waitForKey x = (machine.waitForKey x).within environment := by
  have held : environment.keypad.isHeld = machine.keypad.isHeld :=
    funext fun key => seen key (List.mem_finRange key)
  have lowest : environment.keypad.lowestHeld = machine.keypad.lowestHeld := by
    rw [Keypad.lowestHeld, Keypad.lowestHeld, held]
  simp only [waitForKey, keypad_within, lowest]
  cases machine.keypad.lowestHeld <;> rfl

theorem holds_within {condition : Condition} {fits : condition.Fits}
    (seen : ∀ key ∈ machine.keysRead (.skip condition) fits,
      environment.keypad.isHeld key = machine.keypad.isHeld key) :
    (machine.within environment).holds condition fits = machine.holds condition fits := by
  cases condition with
  | held x => exact seen _ (List.mem_singleton_self _)
  | released x => exact congrArg not (seen _ (List.mem_singleton_self _))
  | _ => rfl

theorem passIndex_within (machine : Machine) (last : Register)
    (same : machine.dialect.advancesIndex = environment.dialect.advancesIndex) :
    (machine.within environment).passIndex last = (machine.passIndex last).within environment := by
  simp only [passIndex, dialect_within, same]
  rfl

theorem storeRegisters_within (last : Register)
    (same : machine.dialect.advancesIndex = environment.dialect.advancesIndex) :
    (machine.within environment).storeRegisters last =
      (machine.storeRegisters last).map (·.within environment) id := by
  have passed := passIndex_within
    (machine.store ((Registers.upTo last).map machine.registers.get)).1 last same
  exact congrArg (fun machine : Machine => (machine.advance, _)) passed

theorem loadRegisters_within (last : Register)
    (same : machine.dialect.advancesIndex = environment.dialect.advancesIndex) :
    (machine.within environment).loadRegisters last =
      (machine.loadRegisters last).within environment := by
  simp only [loadRegisters, memory_within, index_within, registers_within]
  generalize List.foldl _ _ _ = registers
  exact congrArg advance (passIndex_within { machine with registers } last same)

/-- An instruction that meets no difference between two environments does the same in both and raises
the same faults. -/
theorem execute_within (random : Byte) {instruction : Instruction} (fits : instruction.Fits)
    (agree : Dialect.AgreeOn (machine.disputed instruction fits) machine.dialect environment.dialect)
    (seen : ∀ key ∈ machine.keysRead instruction fits,
      environment.keypad.isHeld key = machine.keypad.isHeld key) :
    (machine.within environment).execute random instruction fits =
      (machine.execute random instruction fits).map (·.within environment) id := by
  cases instruction with
  | ret => exact ret_within
  | call target => exact call_within target
  | waitForKey x => exact congrArg (·, []) (waitForKey_within ⟨x, fits⟩ seen)
  | skip condition =>
    simp only [execute, holds_within seen]
    rfl
  | arithmetic operation x y =>
    have registers := Arithmetic.apply_congr operation ⟨x, fits.1⟩ ⟨y, fits.2⟩ machine.registers agree
    simp only [execute, dialect_within, registers_within, ← registers]
    rfl
  | jumpIndexed target =>
    have offset := get_jumpRegister target fits agree
    simp only [execute, jumpIndexed, dialect_within, registers_within, offset]
    rfl
  | draw x y rows =>
    have drawn := screen_draw_congr ⟨x, fits.1⟩ ⟨y, fits.2.1⟩ rows fits agree
    simp only [execute, draw, dialect_within, registers_within, memory_within,
      index_within, screen_within, drawn]
    rfl
  | storeRegisters x =>
    have same : machine.dialect.advancesIndex = environment.dialect.advancesIndex := agree .advancesIndex rfl
    exact storeRegisters_within ⟨x, fits⟩ same
  | loadRegisters x =>
    have same : machine.dialect.advancesIndex = environment.dialect.advancesIndex := agree .advancesIndex rfl
    exact congrArg (·, []) (loadRegisters_within ⟨x, fits⟩ same)
  | _ => rfl

/-- The next step of a machine, if it meets no difference between the environments. -/
theorem step_within (random : Byte)
    (agree : Dialect.AgreeOn machine.disputedNext machine.dialect environment.dialect)
    (seen : ∀ key ∈ machine.nextKeysRead,
      environment.keypad.isHeld key = machine.keypad.isHeld key) :
    (machine.within environment).step random =
      (machine.step random).map (·.within environment) id := by
  cases decoded : machine.next? with
  | none =>
    have unknown : (machine.within environment).next? = none := decoded
    rw [step_of_unrecognized random decoded, step_of_unrecognized random unknown]
    rfl
  | some instruction =>
    have known : (machine.within environment).next? = some instruction := decoded
    rw [disputedNext_of_next decoded] at agree
    rw [nextKeysRead_of_next decoded] at seen
    have executed : (machine.within environment).counted.execute random instruction _ = _ :=
      machine.counted.execute_within random (fits_of_next decoded) agree seen
    rw [step_of_next random decoded, step_of_next random known, executed]
    rfl

end Instructions

end Machine

end Chip8
