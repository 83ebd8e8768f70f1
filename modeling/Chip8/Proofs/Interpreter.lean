import Chip8.Proofs.Blocks
import Chip8.Proofs.Drawing
import Chip8.Proofs.Effect
import Chip8.Proofs.Image
import Chip8.Proofs.Run

namespace Chip8

namespace Memory

/-- Below the program area the memory holds what a new one holds. -/
def Intact (memory : Memory) : Prop :=
  ∀ location, location.val < programStart → memory.get location = initial.get location

theorem intact_initial : initial.Intact := fun _ _ => rfl

theorem intact_writeBytes {memory : Memory} (intact : memory.Intact) (start : Word)
    (bytes : List Byte) : (memory.writeBytes start bytes).1.Intact :=
  fun location low => (memory.get_writeBytes_of_low start bytes low).trans (intact location low)

theorem intact_load {memory loaded : Memory} {program : List Byte} (intact : memory.Intact)
    (success : memory.load program = .ok loaded) : loaded.Intact := by
  intro location low
  rw [get_load location success, if_pos low]
  exact intact location low

/-- The font, and zero from there to the program area. -/
theorem take_toList_of_intact {memory : Memory} (intact : memory.Intact) :
    memory.toList.take programStart = Font.rows.toList ++ List.replicate 432 0 := by
  refine List.ext_getElem ?_ fun index left right => ?_
  · simp only [toList, programStart, List.length_take, List.length_append, List.length_replicate,
      Vector.length_toList]
    rfl
  · have low : index < programStart := by
      simp only [List.length_take] at left
      omega
    have inside : index < 4096 := Nat.lt_trans low (by decide)
    have located : (memory.toList.take programStart)[index] = memory.get ⟨index, inside⟩ := by
      simp [toList, get]
    rw [located, intact ⟨index, inside⟩ low, get_initial, List.getElem_append]
    split
    · rename_i inFont
      simp only [Vector.length_toList] at inFont
      simp [inFont]
    · rename_i pastFont
      have beyond : Font.rows[index]? = none := by simpa using pastFont
      rw [beyond, List.getElem_replicate]
      rfl

/-- The five rows from a digit's place on are its glyph. -/
theorem readBytes_of_intact {memory : Memory} (intact : memory.Intact) (digit : Fin 16) {start : Word}
    (place : start.toNat = Font.glyphHeight * digit.val) :
    memory.readBytes start Font.glyphHeight = Font.glyph digit := by
  have bound := digit.isLt
  simp only [Font.glyphHeight] at place
  refine List.ext_getElem ?_ fun row left right => ?_
  · simp only [length_readBytes, Font.glyph, Font.glyphHeight,
      List.length_take, List.length_drop, Vector.length_toList]
    omega
  · have short : row < 5 := by simpa [readBytes, Font.glyphHeight] using left
    have location : (Address.ofWord (start + UInt16.ofNat row)).val = 5 * digit.val + row := by
      rw [Address.val_ofWord_add, place]
      omega
    have low : (Address.ofWord (start + UInt16.ofNat row)).val < programStart := by
      rw [location, programStart]
      omega
    have inFont : 5 * digit.val + row < 80 := by omega
    have fetched : (memory.readBytes start Font.glyphHeight)[row] =
        memory.get (Address.ofWord (start + UInt16.ofNat row)) := by
      simp [readBytes, read]
    refine fetched.trans ?_
    rw [intact _ low, get_initial, location]
    simp [Font.glyph, Font.glyphHeight, inFont]

end Memory

namespace Machine

/-- The coordinate that drawing reads from a register. The flag register has been cleared by then. -/
def origin (machine : Machine) (register : Register) : Byte :=
  if register = .flag then 0 else machine.registers.get register

theorem origin_eq (machine : Machine) (register : Register) :
    (machine.registers.setFlag false).get register = machine.origin register := by
  rw [Registers.setFlag, Registers.get_set]
  rfl

theorem step_of_setGlyph {machine : Machine} {x : Register} (random : Byte)
    (pointing : machine.next? = some (.setGlyph x.val)) :
    (machine.step random).1 =
      { machine.counted.advance with
        index := UInt16.ofNat Font.glyphHeight * Word.ofByte (machine.registers.get x)
        timers := machine.timers.tick } := by
  rw [step_of_next random pointing]
  rfl

theorem step_of_draw {machine : Machine} {x y : Register} {rows : Nat} (random : Byte)
    (drawing : machine.next? = some (.draw x.val y.val rows)) :
    (machine.step random).1 =
      let drawn := machine.screen.draw (machine.origin x) (machine.origin y)
        (machine.memory.readBytes machine.index rows) machine.dialect.clipsSprites
      { machine.counted.advance with
        screen := drawn.1
        registers := (machine.registers.setFlag false).setFlag drawn.2
        timers := machine.timers.tick } := by
  rw [step_of_next random drawing, ← origin_eq, ← origin_eq]
  rfl

/-- Pointing the index at a digit and drawing five rows draws the digit. -/
theorem lit_draw_of_setGlyph {machine : Machine} (intact : machine.memory.Intact) {x a b : Register}
    {digit : Fin 16} {first second : Byte} (pointing : machine.next? = some (.setGlyph x.val))
    (shown : (machine.registers.get x).toNat = digit.val)
    (drawing : (machine.step first).1.next? = some (.draw a.val b.val 5)) (position : Position) :
    ((machine.step first).1.step second).1.screen.lit position =
      (machine.screen.lit position ^^
        decide (Sprite.Covers (Font.glyph digit) (machine.origin a) (machine.origin b)
          machine.dialect.clipsSprites position)) := by
  have bound := digit.isLt
  have low : (Font.glyph digit).length ≤ 32 := by
    simp only [Font.glyph, Font.glyphHeight, List.length_take]
    omega
  have place : (UInt16.ofNat Font.glyphHeight * Word.ofByte (machine.registers.get x)).toNat =
      Font.glyphHeight * digit.val := by
    simp only [UInt16.toNat_mul, UInt16.toNat_ofNat', Word.ofByte, Font.glyphHeight, shown]
    omega
  rw [step_of_draw second drawing, step_of_setGlyph first pointing]
  have rows := Memory.readBytes_of_intact intact digit place
  refine Eq.trans ?_ (Screen.lit_draw_of_low machine.screen _ _ _ low position)
  rw [← rows]
  rfl

end Machine

namespace Session

theorem intact_performAll (settings : Settings) (requests : List Request) :
    ((ofMachine (.new settings)).performAll requests).machine.memory.Intact := by
  have fresh : (ofMachine (.new settings)).machine.memory = .initial := rfl
  apply history_invariant (·.machine.memory.Intact) (fresh ▸ Memory.intact_initial)
  rintro ⟨session, request⟩ member intact
  rcases request_of_mem_history member with ⟨random, rfl⟩ | ⟨_, host⟩
  · obtain ⟨bytes, stored⟩ := session.machine.exists_memory_step random
    change (session.machine.step random).1.memory.Intact
    rw [stored]
    exact Memory.intact_writeBytes intact _ bytes
  · cases request with
    | step | run => contradiction
    | load program =>
      rcases session.machine_perform_load_cases program with ⟨memory, success, loaded⟩ | refused
      · rw [loaded]
        exact Memory.intact_load intact success
      · rw [refused]
        exact intact
    | _ => exact intact

/-- No program changes the font or the empty space behind it, so one that draws five rows of a digit toggles
the pixels of its glyph. -/
theorem interpreter_unchanged (settings : Settings) (requests : List Request) :
    let machine := ((ofMachine (.new settings)).performAll requests).machine
    machine.memory.toList.take 0x50 = Font.rows.toList ∧
      (machine.memory.toList.take 0x200).drop 0x50 = List.replicate (0x200 - 0x50) 0 ∧
      ∀ (x a b : Register) (digit : Fin 16) (first second : Byte),
        machine.next? = some (.setGlyph x.val) →
        (machine.registers.get x).toNat = digit.val →
        (machine.step first).1.next? = some (.draw a.val b.val 5) →
        ∀ position, ((machine.step first).1.step second).1.screen.lit position =
          (machine.screen.lit position ^^
            decide (Sprite.Covers (Font.glyph digit) (machine.origin a) (machine.origin b)
              machine.dialect.clipsSprites position)) := by
  intro machine
  have intact : machine.memory.Intact := intact_performAll settings requests
  have area : machine.memory.toList.take 0x200 = Font.rows.toList ++ List.replicate 432 0 :=
    Memory.take_toList_of_intact intact
  have fontLength : Font.rows.toList.length = 0x50 := Vector.length_toList
  refine ⟨?_, ?_, ?_⟩
  · have font : machine.memory.toList.take 0x50 = (machine.memory.toList.take 0x200).take 0x50 := by
      rw [List.take_take]
      rfl
    rw [font, area]
    exact List.take_left' fontLength
  · rw [area]
    exact List.drop_left' fontLength
  · intro x a b digit first second pointing shown drawing position
    exact Machine.lit_draw_of_setGlyph intact pointing shown drawing position

theorem machine_performAll_load_new (settings : Settings) {program : List Byte}
    (fits : program.length ≤ Memory.programCapacity) (rest : List Request) :
    ((ofMachine (.new settings)).performAll (.load program :: rest)).machine =
      ((ofMachine (.loaded settings program fits)).performAll rest).machine := by
  have loaded : ((ofMachine (.new settings)).perform (.load program)).1.machine =
      .loaded settings program fits :=
    machine_perform_load (Machine.load_new settings fits)
  rw [performAll_cons]
  exact machine_performAll_congr loaded rest

/-- A program that points the index at the digit B and draws it in the upper left corner. -/
def digitProgram : List Byte := [0x60, 0x0b, 0xf0, 0x29, 0xd1, 0xf5]

/-- A new machine that has taken the first step of it. -/
def aboutToDraw : Machine :=
  ((Machine.loaded {} digitProgram (by decide)).step 0).1

theorem machine_performAll_digitProgram :
    ((ofMachine (.new {})).performAll [.load digitProgram, .step 0]).machine = aboutToDraw := by
  rw [machine_performAll_load_new {} (by decide), performAll_cons, performAll_nil, machine_perform_step]
  rfl

/-- The left arm of the digit is lit. -/
theorem interpreter_unchanged_digit :
    let machine := ((ofMachine (.new {})).performAll [.load digitProgram, .step 0]).machine
    ((machine.step 0).1.step 0).1.screen.lit ⟨0, 4⟩ = true := by
  obtain ⟨_, _, drawn⟩ := interpreter_unchanged {} [.load digitProgram, .step 0]
  rw [machine_performAll_digitProgram] at drawn ⊢
  have arm := drawn 0 1 15 11 0 0 (by decide +kernel) (by decide +kernel) (by decide +kernel) ⟨0, 4⟩
  exact arm.trans (by decide +kernel)

end Session

end Chip8
