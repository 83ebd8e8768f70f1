import Chip8.Proofs.Bare.Execute

namespace Chip8.Machine

/-- A machine after the faults of an instruction have been added to its queue. -/
def queued (outcome : Machine × List Fault) : Machine :=
  { outcome.1 with faults := outcome.1.faults.pushAll outcome.2 }

variable (machine : Machine)

theorem advance_bare : machine.bare.advance = machine.advance.bare := rfl

theorem dialect_bare : machine.bare.settings.dialect = machine.dialect := rfl

theorem register_bare {x : Nat} (fits : x < 16) :
    machine.bare.register x = .ok (machine.registers.get ⟨x, fits⟩) :=
  Checked.get_toArray machine.registers.values x fits

theorem setRegister_bare {x : Nat} (fits : x < 16) (value : Byte) :
    machine.bare.setRegister x value = .ok (machine.setRegister ⟨x, fits⟩ value).bare := by
  rw [Bare.setRegister]
  simp only [bare, Checked.set_toArray _ _ _ fits]
  rfl

theorem setFlag_bare (raised : Bool) :
    machine.bare.setFlag raised =
      .ok { machine with registers := machine.registers.setFlag raised }.bare :=
  machine.setRegister_bare (by decide) raised.toUInt8

/-- Masking an address and reducing it to the size of memory are the same. -/
theorem toNat_mask (address : Word) : (address &&& 0x0fff).toNat = (Address.ofWord address).val := by
  rw [UInt16.toNat_and]
  exact Nat.and_two_pow_sub_one_eq_mod address.toNat 12

theorem mask_eq_toWord (address : Word) : address &&& 0x0fff = (Address.ofWord address).toWord := by
  rw [← UInt16.toNat_inj, toNat_mask, Address.toNat_toWord]

theorem read_bare (address : Word) : machine.bare.read address = .ok (machine.memory.read address) := by
  rw [Bare.read, toNat_mask]
  exact Checked.get_toArray machine.memory.bytes _ (Address.ofWord address).isLt

theorem readWord_bare (address : Word) :
    machine.bare.readWord address = .ok (machine.memory.readWord address) := by
  simp only [Bare.readWord, read_bare, Checked.ok_bind]
  rfl

theorem isHeld_bare (byte : Byte) :
    machine.bare.isHeld byte = .ok (machine.keypad.isHeld (Keypad.keyOfByte byte)) := by
  have named : (byte &&& 0xf).toNat = (Keypad.keyOfByte byte).val := by
    rw [UInt8.toNat_and]
    exact Nat.and_two_pow_sub_one_eq_mod byte.toNat 4
  rw [Bare.isHeld, named]
  exact Checked.get_toArray machine.keypad.held _ (Keypad.keyOfByte byte).isLt

theorem holds_bare (condition : Condition) (fits : condition.Fits) :
    machine.bare.holds condition = .ok (machine.holds condition fits) := by
  cases condition with
  | isByte x byte =>
    simp only [Bare.holds, machine.register_bare fits, Checked.ok_bind]
    rfl
  | isNotByte x byte =>
    simp only [Bare.holds, machine.register_bare fits, Checked.ok_bind]
    rfl
  | equal x y =>
    simp only [Bare.holds, machine.register_bare fits.1, machine.register_bare fits.2, Checked.ok_bind]
    rfl
  | notEqual x y =>
    simp only [Bare.holds, machine.register_bare fits.1, machine.register_bare fits.2, Checked.ok_bind]
    rfl
  | held x =>
    simp only [Bare.holds, machine.register_bare fits, Checked.ok_bind, isHeld_bare]
    rfl
  | released x =>
    simp only [Bare.holds, machine.register_bare fits, Checked.ok_bind, isHeld_bare]
    rfl

theorem ret_bare : machine.bare.ret = .ok (queued machine.ret).bare := by
  have bound := machine.stack.depth_le
  simp only [Bare.ret, ret, CallStack.pop?]
  by_cases empty : machine.stack.depth = 0
  · have unused : ¬ 0 < machine.stack.depth := by omega
    have none : machine.bare.depth = 0 := empty
    rw [if_pos none, dif_neg unused, fault_bare]
    rfl
  · have used : 0 < machine.stack.depth := by omega
    have some : ¬ machine.bare.depth = 0 := empty
    have one : 1 ≤ machine.bare.depth := used
    have inside : machine.stack.depth - 1 < 16 := by omega
    rw [if_neg some, dif_pos used, Checked.sub_of_le one, Checked.ok_bind]
    have found : Checked.get machine.bare.stack (machine.bare.depth - 1) = _ :=
      Checked.get_toArray machine.stack.slots _ inside
    rw [found]
    rfl

theorem call_bare (target : Word) :
    machine.bare.call target = .ok (queued (machine.call target)).bare := by
  have bound := machine.stack.depth_le
  simp only [Bare.call, call, CallStack.push?]
  by_cases full : machine.stack.depth = 16
  · have closed : ¬ machine.stack.depth < 16 := by omega
    have all : machine.bare.depth = 16 := full
    rw [if_pos all, dif_neg closed, fault_bare]
    rfl
  · have room : machine.stack.depth < 16 := by omega
    have some : ¬ machine.bare.depth = 16 := full
    have small : machine.bare.depth + 1 < UInt64.size := by
      simp only [bare, UInt64.size]
      omega
    have written : Checked.set machine.bare.stack machine.bare.depth machine.bare.pc = _ :=
      Checked.set_toArray machine.stack.slots _ machine.pc room
    rw [if_neg some, dif_pos room, written, Checked.ok_bind, Checked.add_of_lt small]
    rfl

theorem jumpIndexed_bare (target : Word) :
    machine.bare.jumpIndexed target = .ok (machine.jumpIndexed target).bare := by
  have digit : (target >>> 8).toNat &&& 0xf = target.toNat / 0x100 % 16 := by
    have low : (target >>> 8).toNat = target.toNat / 0x100 := by
      simp [UInt16.toNat_shiftRight, Nat.shiftRight_eq_div_pow]
    rw [low]
    exact Nat.and_two_pow_sub_one_eq_mod (target.toNat / 0x100) 4
  have chosen : (if machine.dialect.jumpsByDigit then (target >>> 8).toNat &&& 0xf else 0) =
      (jumpRegister machine.dialect target).val := by
    rw [digit]
    simp only [jumpRegister]
    split <;> rfl
  rw [Bare.jumpIndexed, dialect_bare, chosen, machine.register_bare (Fin.isLt _)]
  rfl

theorem bitwise_bare (combine : Byte → Byte → Byte) {x y : Nat} (left : x < 16) (right : y < 16) :
    machine.bare.bitwise combine x y =
      .ok { machine with
        registers := Arithmetic.bitwise machine.dialect machine.registers ⟨x, left⟩
          (combine (machine.registers.get ⟨x, left⟩) (machine.registers.get ⟨y, right⟩)) }.bare := by
  rw [Bare.bitwise, machine.register_bare left, machine.register_bare right]
  simp only [Checked.ok_bind, machine.setRegister_bare left]
  rw [dialect_bare]
  simp only [Arithmetic.bitwise]
  by_cases clears : machine.dialect.clearsFlag
  · rw [if_pos clears, if_pos clears, setRegister_bare _ (by decide)]
    rfl
  · rw [if_neg clears, if_neg clears]
    rfl

theorem arithmetic_bare (operation : Arithmetic) {x y : Nat} (left : x < 16) (right : y < 16) :
    machine.bare.arithmetic operation x y =
      .ok { machine with
        registers := operation.apply machine.dialect ⟨x, left⟩ ⟨y, right⟩ machine.registers }.bare := by
  have chosen : (if machine.bare.settings.dialect.shiftsSecond then y else x) < 16 := by
    split
    · exact right
    · exact left
  have source : (⟨_, chosen⟩ : Register) =
      if machine.dialect.shiftsSecond then ⟨y, right⟩ else ⟨x, left⟩ := by
    apply Fin.ext
    change (if machine.bare.settings.dialect.shiftsSecond then y else x) = _
    rw [dialect_bare]
    split <;> rfl
  have small : (machine.registers.get ⟨x, left⟩).toNat + (machine.registers.get ⟨y, right⟩).toNat
      < UInt16.size := by
    have first := (machine.registers.get ⟨x, left⟩).toNat_lt
    have second := (machine.registers.get ⟨y, right⟩).toNat_lt
    simp only [UInt16.size]
    omega
  cases operation with
  | copy =>
    simp only [Bare.arithmetic, register_bare _ right, setRegister_bare _ left, Checked.ok_bind]
    rfl
  | or => exact machine.bitwise_bare _ left right
  | and => exact machine.bitwise_bare _ left right
  | xor => exact machine.bitwise_bare _ left right
  | add =>
    simp only [Bare.arithmetic, register_bare _ left, register_bare _ right, Checked.ok_bind,
      Checked.add_of_lt small, setFlag_bare, setRegister_bare _ left]
    rfl
  | sub =>
    simp only [Bare.arithmetic, register_bare _ left, register_bare _ right, Checked.ok_bind,
      setFlag_bare, setRegister_bare _ left]
    rfl
  | shiftRight =>
    simp only [Bare.arithmetic, register_bare _ chosen, setRegister_bare _ (by decide : 0xf < 16),
      Checked.ok_bind, setRegister_bare _ left, source]
    rfl
  | subFrom =>
    simp only [Bare.arithmetic, register_bare _ left, register_bare _ right, Checked.ok_bind,
      setFlag_bare, setRegister_bare _ left]
    rfl
  | shiftLeft =>
    simp only [Bare.arithmetic, register_bare _ chosen, setRegister_bare _ (by decide : 0xf < 16),
      Checked.ok_bind, setRegister_bare _ left, source]
    rfl

theorem sprite_bare (rows : Nat) :
    machine.bare.sprite rows = .ok (machine.memory.readBytes machine.index rows) := by
  have each : (fun row => machine.bare.read (machine.bare.index + UInt16.ofNat row)) =
      fun row => pure (machine.memory.read (machine.index + UInt16.ofNat row)) := by
    funext row
    exact machine.read_bare (machine.index + UInt16.ofNat row)
  rw [Bare.sprite, each, List.mapM_pure]
  rfl

theorem draw_bare {x y rows : Nat} (left : x < 16) (right : y < 16) (short : rows < 16) :
    machine.bare.draw x y rows = .ok (machine.draw ⟨x, left⟩ ⟨y, right⟩ rows).bare := by
  let cleared : Machine := { machine with registers := machine.registers.setFlag false }
  let sprite : Sprite := machine.memory.readBytes machine.index rows
  have clearing : machine.bare.setRegister 0xf 0 = .ok cleared.bare :=
    machine.setRegister_bare (by decide) 0
  let canvas := machine.screen.draw (cleared.registers.get ⟨x, left⟩) (cleared.registers.get ⟨y, right⟩)
    sprite machine.dialect.clipsSprites
  have countable : (cleared.registers.get ⟨y, right⟩).toNat % 32 + sprite.length ≤ UInt64.size := by
    simp only [sprite, Memory.length_readBytes, UInt64.size]
    omega
  have drawn := Canvas.drawRows_eq_draw machine.screen (cleared.registers.get ⟨x, left⟩) _ sprite
    machine.dialect.clipsSprites countable
  let shown : Machine := { cleared with screen := canvas.1 }
  rw [Bare.draw, clearing, Checked.ok_bind, sprite_bare, Checked.ok_bind, register_bare _ left,
    Checked.ok_bind, register_bare _ right, Checked.ok_bind]
  refine (congrArg (· >>= _) drawn).trans ?_
  rw [Checked.ok_bind]
  exact congrArg (· >>= fun flagged => pure flagged.advance) (shown.setFlag_bare canvas.2)

theorem findIdx?_bare : machine.bare.keys.findIdx? id = machine.keypad.lowestHeld.map Fin.val := by
  simp only [bare, Keypad.lowestHeld]
  cases found : (List.finRange 16).find? machine.keypad.isHeld with
  | none =>
    rw [Option.map_none, Array.findIdx?_eq_none_iff]
    intro held member
    obtain ⟨key, bound, rfl⟩ := Array.mem_iff_getElem.mp member
    have released := List.find?_eq_none.mp found ⟨key, by simpa using bound⟩ (List.mem_finRange _)
    simpa [Keypad.isHeld] using released
  | some key =>
    rw [Option.map_some, Array.findIdx?_eq_some_iff_getElem]
    obtain ⟨held, index, bound, same, earlier⟩ := List.find?_eq_some_iff_getElem.mp found
    have place : index = key.val := by
      rw [← same]
      simp
    subst place
    refine ⟨by simp, by simpa [Keypad.isHeld] using held, fun other before => ?_⟩
    simpa [Keypad.isHeld] using earlier other before

theorem waitForKey_bare {x : Nat} (fits : x < 16) :
    machine.bare.waitForKey x = .ok (machine.waitForKey ⟨x, fits⟩).bare := by
  rw [Bare.waitForKey, findIdx?_bare, waitForKey]
  cases machine.keypad.lowestHeld with
  | none => rfl
  | some key =>
    simp only [Option.map_some, setRegister_bare _ fits, Checked.ok_bind]
    rfl

theorem addIndex_bare {x : Nat} (fits : x < 16) :
    machine.bare.addIndex x =
      .ok { machine with
        index := machine.index + Word.ofByte (machine.registers.get ⟨x, fits⟩) }.advance.bare := by
  rw [Bare.addIndex, register_bare _ fits]
  rfl

theorem setGlyph_bare {x : Nat} (fits : x < 16) :
    machine.bare.setGlyph x =
      .ok { machine with
        index := UInt16.ofNat Font.glyphHeight *
          Word.ofByte (machine.registers.get ⟨x, fits⟩) }.advance.bare := by
  have bound := (machine.registers.get ⟨x, fits⟩).toNat_lt
  have small : 5 * (machine.registers.get ⟨x, fits⟩).toNat < UInt16.size := by
    simp only [UInt16.size]
    omega
  rw [Bare.setGlyph, register_bare _ fits, Checked.ok_bind, Checked.mul_of_lt small,
    Checked.ok_bind, UInt16.ofNat_mul]
  rfl

theorem passIndex_bare {last : Nat} (fits : last < 16) :
    machine.bare.passIndex last = .ok (machine.passIndex ⟨last, fits⟩).bare := by
  have small : last + 1 < UInt16.size := by
    simp only [UInt16.size]
    omega
  rw [Bare.passIndex, passIndex, dialect_bare]
  by_cases advances : machine.dialect.advancesIndex
  · rw [if_pos advances, if_pos advances, Checked.add_of_lt small]
    rfl
  · rw [if_neg advances, if_neg advances, UInt16.add_zero]

/-- The machine after one byte was sent to an offset from the index. -/
def sent (offset : Word) (byte : Byte) : Machine :=
  match machine.memory.write (machine.index + offset) byte with
  | .ok memory => { machine with memory }
  | .error location => queued (machine, [.protectedWrite machine.pc location.toWord])

theorem store_bare (offset : Word) (byte : Byte) :
    machine.bare.store offset byte = .ok (machine.sent offset byte).bare := by
  let target := machine.index + offset
  simp only [Bare.store, sent, Memory.write]
  have low : (machine.bare.index + offset) &&& 0x0fff < 0x200 ↔
      (Address.ofWord target).val < Memory.programStart := by
    rw [UInt16.lt_iff_toNat_lt, toNat_mask]
    rfl
  by_cases closed : (Address.ofWord target).val < Memory.programStart
  · rw [if_pos (low.mpr closed), if_pos closed, fault_bare, mask_eq_toWord]
    rfl
  · have written : Checked.set machine.bare.memory (Address.ofWord target).val byte = _ :=
      Checked.set_toArray machine.memory.bytes _ byte (Address.ofWord target).isLt
    rw [if_neg (mt low.mp closed), if_neg closed, toNat_mask]
    refine (congrArg (· >>= _) written).trans ?_
    rfl

/-- The machine after consecutive bytes were sent to the offsets from a first one on. -/
def sentAll (offset : Word) (bytes : List Byte) : Machine :=
  let (memory, refused) := machine.memory.writeBytes (machine.index + offset) bytes
  queued ({ machine with memory },
    refused.map fun location => .protectedWrite machine.pc location.toWord)

theorem sentAll_nil (offset : Word) : machine.sentAll offset [] = machine := rfl

theorem sentAll_cons (offset : Word) (byte : Byte) (rest : List Byte) :
    machine.sentAll offset (byte :: rest) = (machine.sent offset byte).sentAll (offset + 1) rest := by
  simp only [sentAll, sent, Memory.writeBytes, UInt16.add_assoc]
  cases machine.memory.write (machine.index + offset) byte with
  | ok memory => rfl
  | error location => rfl

theorem queued_store (bytes : List Byte) : queued (machine.store bytes) = machine.sentAll 0 bytes := by
  simp only [store, sentAll, UInt16.add_zero]

theorem storeDecimal_bare {x : Nat} (fits : x < 16) :
    machine.bare.storeDecimal x = .ok (queued (machine.storeDecimal ⟨x, fits⟩)).bare := by
  have whole : queued (machine.storeDecimal ⟨x, fits⟩) =
      (queued (machine.store (decimalDigits (machine.registers.get ⟨x, fits⟩)))).advance := rfl
  have second : (0 + 1 : Word) = 1 := rfl
  have third : (1 + 1 : Word) = 2 := rfl
  rw [Bare.storeDecimal, register_bare _ fits, Checked.ok_bind, store_bare, Checked.ok_bind, store_bare,
    Checked.ok_bind, store_bare, Checked.ok_bind, whole, queued_store]
  simp only [decimalDigits, sentAll_cons, sentAll_nil, second, third, Checked.pure_eq_ok, advance_bare]

theorem registers_sent (offset : Word) (byte : Byte) :
    (machine.sent offset byte).registers = machine.registers := by
  unfold sent
  split <;> rfl

/-- Storing registers one after the other sends the values from the first of them on. -/
theorem foldlM_storeRegister_bare (first : Nat) (bytes rest : List Byte)
    (values : machine.registers.values.toList.drop first = bytes ++ rest) :
    (List.range' first bytes.length).foldlM Bare.storeRegister machine.bare =
      .ok (machine.sentAll (UInt16.ofNat first) bytes).bare := by
  induction bytes generalizing machine first with
  | nil => rfl
  | cons byte bytes continued =>
    -- A byte is left to store, so a register is left to store it from.
    have fits : first < 16 := by
      have count := congrArg List.length values
      simp only [List.length_drop, Vector.length_toList, List.cons_append, List.length_cons] at count
      omega
    rw [List.drop_eq_getElem_cons (by simpa using fits), List.cons_append, List.cons.injEq] at values
    obtain ⟨value, later⟩ := values
    have stored : Bare.storeRegister machine.bare first =
        .ok (machine.sent (UInt16.ofNat first) byte).bare := by
      have same : machine.registers.get ⟨first, fits⟩ = byte := value
      rw [Bare.storeRegister, register_bare _ fits, Checked.ok_bind, store_bare, same]
    rw [← machine.registers_sent (UInt16.ofNat first) byte] at later
    rw [List.length_cons, List.range'_succ, List.foldlM_cons, stored, Checked.ok_bind,
      continued _ _ later, sentAll_cons, UInt16.ofNat_add]
    rfl

theorem map_val_upTo (last : Register) :
    (Registers.upTo last).map Fin.val = List.range (last.val + 1) := by
  refine List.ext_getElem ?_ fun index left right => ?_
  · simp only [Registers.upTo, List.length_map, List.length_take, List.length_finRange,
      List.length_range]
    omega
  · simp [Registers.upTo]

theorem storeRegisters_bare {last : Nat} (fits : last < 16) :
    machine.bare.storeRegisters last = .ok (queued (machine.storeRegisters ⟨last, fits⟩)).bare := by
  let bytes := machine.registers.values.toList.take (last + 1)
  have count : bytes.length = last + 1 := by
    simp only [bytes, List.length_take, Vector.length_toList]
    omega
  have whole : queued (machine.storeRegisters ⟨last, fits⟩) =
      ((queued (machine.store bytes)).passIndex ⟨last, fits⟩).advance := by
    simp only [storeRegisters, Registers.map_get_upTo]
    rfl
  have stored := machine.foldlM_storeRegister_bare 0 bytes
    (machine.registers.values.toList.drop (last + 1)) (List.take_append_drop _ _).symm
  rw [count, ← List.range_eq_range'] at stored
  rw [Bare.storeRegisters, stored, Checked.ok_bind, passIndex_bare _ fits, Checked.ok_bind, whole,
    queued_store]
  rfl

/-- Loading registers one after the other, in any order. -/
theorem foldlM_loadRegister_bare (targets : List Register) :
    (targets.map Fin.val).foldlM Bare.loadRegister machine.bare =
      .ok { machine with
        registers := targets.foldl (fun registers register =>
          registers.set register (machine.memory.read (machine.index + UInt16.ofNat register.val)))
          machine.registers }.bare := by
  induction targets generalizing machine with
  | nil => rfl
  | cons target rest continued =>
    have loaded : Bare.loadRegister machine.bare target.val =
        .ok (machine.setRegister target
          (machine.memory.read (machine.index + UInt16.ofNat target.val))).bare := by
      rw [Bare.loadRegister]
      have index : machine.bare.index = machine.index := rfl
      rw [index, read_bare, Checked.ok_bind, setRegister_bare _ target.isLt]
    rw [List.map_cons, List.foldlM_cons, loaded, Checked.ok_bind, continued]
    rfl

theorem loadRegisters_bare {last : Nat} (fits : last < 16) :
    machine.bare.loadRegisters last = .ok (machine.loadRegisters ⟨last, fits⟩).bare := by
  have loaded := machine.foldlM_loadRegister_bare (Registers.upTo ⟨last, fits⟩)
  rw [map_val_upTo] at loaded
  rw [Bare.loadRegisters, loaded, Checked.ok_bind, passIndex_bare _ fits]
  rfl

theorem clearScreen_bare (random : Byte) :
    machine.bare.execute random .clearScreen =
      .ok { machine with screen := machine.screen.clear }.advance.bare := by
  have dark : machine.bare.pixels.map (fun _ => 0) =
      (machine.screen.clear.pixels.map Bool.toUInt8).toArray := by
    refine Array.ext ?_ fun index left right => ?_
    · simp [bare]
    · simp [Screen.clear]
      rfl
  rw [Bare.execute, dark]
  rfl

/-- An instruction whose operands fit succeeds without the bounds as well, and does the same. -/
theorem execute_bare (random : Byte) (instruction : Instruction) (fits : instruction.Fits) :
    machine.bare.execute random instruction =
      .ok (queued (machine.execute random instruction fits)).bare := by
  cases instruction with
  | clearScreen => exact machine.clearScreen_bare random
  | ret => exact machine.ret_bare
  | jump target => rfl
  | call target => exact machine.call_bare target
  | skip condition =>
    rw [Bare.execute, machine.holds_bare condition fits]
    rfl
  | setByte x byte =>
    rw [Bare.execute, setRegister_bare _ fits]
    rfl
  | addByte x byte =>
    rw [Bare.execute, register_bare _ fits, Checked.ok_bind, setRegister_bare _ fits]
    rfl
  | arithmetic operation x y =>
    rw [Bare.execute, machine.arithmetic_bare operation fits.1 fits.2]
    rfl
  | setIndex target => rfl
  | jumpIndexed target => exact machine.jumpIndexed_bare target
  | random x mask =>
    rw [Bare.execute, setRegister_bare _ fits]
    rfl
  | draw x y rows => exact machine.draw_bare fits.1 fits.2.1 fits.2.2
  | getDelay x =>
    rw [Bare.execute, setRegister_bare _ fits]
    rfl
  | waitForKey x => exact machine.waitForKey_bare fits
  | setDelay x =>
    rw [Bare.execute, register_bare _ fits]
    rfl
  | setSound x =>
    rw [Bare.execute, register_bare _ fits]
    rfl
  | addIndex x => exact machine.addIndex_bare fits
  | setGlyph x => exact machine.setGlyph_bare fits
  | storeDecimal x => exact machine.storeDecimal_bare fits
  | storeRegisters x => exact machine.storeRegisters_bare fits
  | loadRegisters x => exact machine.loadRegisters_bare fits

end Chip8.Machine
