import Chip8.Machine.Basic

namespace Chip8

namespace Memory

/-- The font, an empty gap, a program, and nothing after it. -/
def imageBytes (program : List Byte) : List Byte :=
  Font.rows.toList ++ (List.replicate 432 0 ++ (program ++ List.replicate (3584 - program.length) 0))

theorem length_imageBytes {program : List Byte} (fits : program.length ≤ programCapacity) :
    (imageBytes program).length = 4096 := by
  have bound : program.length ≤ 3584 := fits
  simp only [imageBytes, List.length_append, List.length_replicate, Vector.length_toList]
  omega

def image (program : List Byte) (fits : program.length ≤ programCapacity) : Memory :=
  ⟨⟨⟨imageBytes program⟩, length_imageBytes fits⟩⟩

private theorem getD_replicate_zero (count index : Nat) :
    (List.replicate count (0 : Byte))[index]?.getD 0 = 0 := by
  rw [List.getElem?_replicate]
  split <;> rfl

theorem getElem?_imageBytes (program : List Byte) (location : Nat) :
    (imageBytes program)[location]?.getD 0 =
      if location < programStart then Font.rows[location]?.getD 0
      else program[location - programStart]?.getD 0 := by
  simp only [imageBytes, List.getElem?_append, Vector.length_toList, List.length_replicate, programStart]
  by_cases inFont : location < 80
  · have low : location < 0x200 := by omega
    simp [inFont, low]
  · by_cases low : location < 0x200
    · have gap : location - 80 < 432 := by omega
      have pastFont : Font.rows[location]? = none := by simp; omega
      simp only [inFont, gap, low, ↓reduceIte, getD_replicate_zero, pastFont, Option.getD_none]
    · have pastGap : ¬ location - 80 < 432 := by omega
      have offset : location - 80 - 432 = location - 0x200 := by omega
      simp only [inFont, pastGap, low, ↓reduceIte, offset]
      split
      · rfl
      · rename_i pastProgram
        rw [getD_replicate_zero, List.getElem?_eq_none (Nat.le_of_not_lt pastProgram)]
        rfl

theorem get_image {program : List Byte} (fits : program.length ≤ programCapacity)
    (location : Address) :
    (image program fits).get location =
      if location.val < programStart then Font.rows[location.val]?.getD 0
      else program[location.val - programStart]?.getD 0 := by
  have bound : location.val < (imageBytes program).length := by
    rw [length_imageBytes fits]
    exact location.isLt
  rw [← getElem?_imageBytes, List.getElem?_eq_getElem bound]
  simp only [get, image, Vector.getElem_mk, List.getElem_toArray, Option.getD_some]

/-- A program that is loaded into a new machine leads to its image. -/
theorem load_initial {program : List Byte} (fits : program.length ≤ programCapacity) :
    initial.load program = .ok (image program fits) := by
  cases loaded : initial.load program with
  | error error =>
    have long := (load_eq_error_iff.mp loaded).1
    omega
  | ok memory =>
    refine congrArg Except.ok (ext_get fun location => ?_)
    rw [get_load location loaded, get_image]
    split
    · exact get_initial location
    · rename_i notLow
      rw [get_initial_of_high (Nat.le_of_not_lt notLow)]

end Memory

namespace Machine

/-- A new machine with a program in it. -/
def loaded (settings : Settings) (program : List Byte)
    (fits : program.length ≤ Memory.programCapacity) : Machine :=
  { settings, memory := .image program fits }

theorem load_new (settings : Settings) {program : List Byte}
    (fits : program.length ≤ Memory.programCapacity) :
    (new settings).load program = .ok (loaded settings program fits) := by
  have success : (new settings).memory.load program = .ok (.image program fits) :=
    Memory.load_initial fits
  rw [load, success]
  rfl

end Machine

end Chip8
