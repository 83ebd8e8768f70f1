import Chip8.Proofs.Blocks
import Chip8.Proofs.Interpreter

namespace Chip8

namespace Registers

/-- The flag register keeps what was put there last. -/
theorem setFlag_setFlag (registers : Registers) (first second : Bool) :
    (registers.setFlag first).setFlag second = registers.setFlag second := by
  refine ext_get fun register => ?_
  simp only [setFlag, get_set]
  by_cases same : register = .flag
  · rw [if_pos same, if_pos same]
  · rw [if_neg same, if_neg same, if_neg same]

theorem get_setFlag_self (registers : Registers) (raised : Bool) :
    (registers.setFlag raised).get .flag = if raised then 1 else 0 := by
  rw [setFlag, get_set_self]
  cases raised <;> rfl

end Registers

namespace Machine

/-- The draw instruction puts a bit of its sprite on a position. Rows are read from the index on, and
columns from the most significant bit. -/
structure Plots (machine : Machine) (x y : Register) (rows row column : Nat) (position : Position) :
    Prop where
  row_lt : row < rows
  column_lt : column < 8
  set : ∃ line, machine.memory.toList[(machine.index.toNat + row) % 4096]? = some line ∧
    line.toNat.testBit (7 - column) = true
  unclipped : machine.dialect.clipsSprites = true →
    (machine.origin x).toNat % 64 + column < 64 ∧ (machine.origin y).toNat % 32 + row < 32
  x_eq : position.x.val = ((machine.origin x).toNat % 64 + column) % 64
  y_eq : position.y.val = ((machine.origin y).toNat % 32 + row) % 32

section Plots

variable {machine : Machine} {x y : Register} {rows : Nat} {position : Position}

theorem bit_readBytes_iff {row column : Nat} (inside : row < rows) :
    Sprite.bit (machine.memory.readBytes machine.index rows) row column = true ↔
      ∃ line, machine.memory.toList[(machine.index.toNat + row) % 4096]? = some line ∧
        line.toNat.testBit (7 - column) = true := by
  rw [Sprite.bit, machine.memory.getElem?_readBytes machine.index inside]
  cases machine.memory.toList[(machine.index.toNat + row) % 4096]? with
  | none => simp
  | some line => simp

/-- The sprite in memory covers what the instruction plots. -/
theorem covers_iff_exists_plots :
    Sprite.Covers (machine.memory.readBytes machine.index rows) (machine.origin x) (machine.origin y)
        machine.dialect.clipsSprites position ↔
      ∃ row column, machine.Plots x y rows row column position := by
  constructor
  · rintro ⟨row, inside, column, narrow, set, kept, rfl⟩
    rw [Memory.length_readBytes] at inside
    refine ⟨row, column, inside, narrow, (bit_readBytes_iff inside).mp set, ?_, rfl, rfl⟩
    intro clips
    simp only [Sprite.stays, clips, Bool.not_true, Bool.false_or, Bool.and_eq_true,
      decide_eq_true_eq] at kept
    exact kept.symm
  · rintro ⟨row, column, inside, narrow, set, unclipped, sameX, sameY⟩
    refine ⟨row, ?_, column, narrow, (bit_readBytes_iff inside).mpr set, ?_, ?_⟩
    · rwa [Memory.length_readBytes]
    · cases clips : machine.dialect.clipsSprites with
      | false => rfl
      | true =>
        obtain ⟨right, bottom⟩ := unclipped clips
        simp [Sprite.stays, right, bottom]
    · cases position
      simp only [Sprite.target, Position.wrap, Position.mk.injEq, Fin.ext_iff]
      exact ⟨sameX.symm, sameY.symm⟩

/-- So few rows and columns do not go round the screen. -/
theorem Plots.unique {row column otherRow otherColumn : Nat} (few : rows < 16)
    (plots : machine.Plots x y rows row column position)
    (otherPlots : machine.Plots x y rows otherRow otherColumn position) :
    row = otherRow ∧ column = otherColumn := by
  have low := plots.row_lt
  have otherLow := otherPlots.row_lt
  have narrow := plots.column_lt
  have otherNarrow := otherPlots.column_lt
  have sameX := plots.x_eq.symm.trans otherPlots.x_eq
  have sameY := plots.y_eq.symm.trans otherPlots.y_eq
  omega

end Plots

/-- A draw instruction changes exactly the pixels on which it puts a set bit of its sprite, and reports
whether one that was lit is dark. -/
theorem draw_step (machine : Machine) (random : Byte) (x y : Register) (rows : Nat)
    (drawing : machine.next? = some (.draw x.val y.val rows)) :
    let after := (machine.step random).1
    let Darkened (position : Position) :=
      machine.screen.lit position = true ∧ after.screen.lit position = false
    (∀ position, after.screen.lit position = !machine.screen.lit position ↔
        ∃ row column, machine.Plots x y rows row column position) ∧
      (∀ position row column otherRow otherColumn, machine.Plots x y rows row column position →
        machine.Plots x y rows otherRow otherColumn position → row = otherRow ∧ column = otherColumn) ∧
      ((∃ position, Darkened position) → after.registers.get .flag = 1) ∧
      ((¬ ∃ position, Darkened position) → after.registers.get .flag = 0) ∧
      (∀ register, register ≠ .flag → after.registers.get register = machine.registers.get register) ∧
      after.index = machine.index ∧
      after.memory = machine.memory ∧
      after.stack = machine.stack ∧
      after.pc = machine.pc + 2 := by
  intro after Darkened
  let sprite := machine.memory.readBytes machine.index rows
  let drawn := machine.screen.draw (machine.origin x) (machine.origin y) sprite
    machine.dialect.clipsSprites
  obtain ⟨_, _, few⟩ := Instruction.fits_of_decode drawing
  have low : sprite.length ≤ 32 := by
    rw [Memory.length_readBytes]
    omega
  have stepped : after = _ := step_of_draw random drawing
  have screen : after.screen = drawn.1 := congrArg Machine.screen stepped
  have registers : after.registers = machine.registers.setFlag drawn.2 :=
    (congrArg Machine.registers stepped).trans (machine.registers.setFlag_setFlag false drawn.2)
  have report : drawn.2 = true ↔ ∃ position, Darkened position := by
    simp only [Darkened, screen]
    exact Screen.collision_draw_iff_of_low machine.screen _ _ _ low
  refine ⟨?_, fun position row column otherRow otherColumn => Plots.unique few, ?_, ?_, ?_, ?_, ?_, ?_, ?_⟩
  · intro position
    rw [screen, ← covers_iff_exists_plots]
    exact machine.screen.lit_draw_eq_not_iff_of_low _ _ _ low position
  · intro dark
    rw [registers, Registers.get_setFlag_self, if_pos (report.mpr dark)]
  · intro kept
    rw [registers, Registers.get_setFlag_self, if_neg (mt report.mp kept)]
  · intro register other
    rw [registers]
    exact machine.registers.get_set_of_ne drawn.2.toUInt8 other
  · exact (congrArg Machine.index stepped).trans rfl
  · exact (congrArg Machine.memory stepped).trans rfl
  · exact (congrArg Machine.stack stepped).trans rfl
  · exact (congrArg Machine.pc stepped).trans rfl

/-- Draws the last byte of memory and the first one across the right edge, twice. In between the flag
register, which names the row, becomes nine. -/
def erasingProgram : List Byte := [0x63, 0x3e, 0xaf, 0xff, 0xd3, 0xf2, 0x6f, 0x09, 0xd3, 0xf2]

/-- A machine that has come to the second drawing. -/
def aboutToErase : Machine :=
  ((Session.ofMachine (.loaded {} erasingProgram (by decide))).run (fun _ => 0) 4).machine

theorem aboutToErase_state :
    aboutToErase.next? = some (.draw 3 15 2) ∧ aboutToErase.index = 0xfff ∧ aboutToErase.pc = 0x208 ∧
      aboutToErase.dialect.clipsSprites = false ∧ aboutToErase.origin 3 = 62 ∧
      aboutToErase.memory.toList[0x000]? = some 0xf0 ∧
      aboutToErase.screen.lit (Position.wrap 63 1) = true ∧
      aboutToErase.screen.lit (Position.wrap 64 1) = true := by
  decide +kernel

/-- The second row is the top of the digit 0. It turns dark what it has lit, on both sides of the edge, and
the flag register tells so. -/
theorem draw_step_aboutToErase :
    let after := (aboutToErase.step 0).1
    after.screen.lit (Position.wrap 63 1) = false ∧ after.screen.lit (Position.wrap 64 1) = false ∧
      after.registers.get .flag = 1 ∧ after.pc = 0x20a := by
  intro after
  obtain ⟨drawing, index, pc, wraps, originX, line, litLeft, litRight⟩ := aboutToErase_state
  have plots (column x : Nat) (narrow : column < 8) (set : (0xf0 : Byte).toNat.testBit (7 - column) = true)
      (place : (62 + column) % 64 = x % 64) :
      aboutToErase.Plots 3 .flag 2 1 column (Position.wrap x 1) :=
    { row_lt := by decide
      column_lt := narrow
      set := ⟨0xf0, by rw [index]; exact line, set⟩
      unclipped := fun clips => absurd (clips.symm.trans wraps) (by decide)
      x_eq := by rw [originX]; exact place.symm
      y_eq := rfl }
  obtain ⟨changed, _, reported, _, _, _, _, _, next⟩ := draw_step aboutToErase 0 3 .flag 2 drawing
  have darkLeft := (changed _).mpr ⟨1, 1, plots 1 63 (by decide) (by decide) (by decide)⟩
  have darkRight := (changed _).mpr ⟨1, 2, plots 2 64 (by decide) (by decide) (by decide)⟩
  rw [litLeft] at darkLeft
  rw [litRight] at darkRight
  refine ⟨darkLeft, darkRight, reported ⟨_, litLeft, darkLeft⟩, next.trans ?_⟩
  rw [pc]
  rfl

end Machine

end Chip8
