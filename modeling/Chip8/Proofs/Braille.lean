import Chip8.Screen.Picture

namespace Chip8

namespace Braille

/-- Which dots of a cell are set, by column and row. -/
abbrev Dots := Fin 2 → Fin 4 → Prop

/-- The bit that stands for a dot in the number of a character. The dots are numbered down the first three
rows of either column, and then along the fourth row. -/
def place (column : Fin 2) (row : Fin 4) : Nat :=
  if row.val < 3 then 3 * column.val + row.val else 6 + column.val

/-- The character shows the dots: none as a blank, and any others as the character of the Braille block that
has these and no more. -/
def Shows (dots : Dots) (character : Char) : Prop :=
  ((∀ column row, ¬ dots column row) ∧ character = ' ') ∨
    (∃ column row, dots column row) ∧ ∃ pattern < 256, character.toNat = 0x2800 + pattern ∧
      ∀ column row, pattern.testBit (place column row) = true ↔ dots column row

theorem exists_place {bit : Nat} (bound : bit < 8) : ∃ column row, place column row = bit := by
  revert bit
  decide

/-- All eight bits of a pattern stand for dots. -/
theorem pattern_ext {left right : Nat} (leftBound : left < 256) (rightBound : right < 256)
    (same : ∀ column row, left.testBit (place column row) = right.testBit (place column row)) :
    left = right := by
  refine Nat.eq_of_testBit_eq fun bit => ?_
  rcases Nat.lt_or_ge bit 8 with inside | beyond
  · obtain ⟨column, row, rfl⟩ := exists_place inside
    exact same column row
  · have power : 2 ^ 8 ≤ 2 ^ bit := Nat.pow_le_pow_right (by decide) beyond
    rw [Nat.testBit_lt_two_pow (by omega), Nat.testBit_lt_two_pow (by omega)]

variable {dots others : Dots} {character other : Char}

theorem Shows.unique (first : Shows dots character) (second : Shows dots other) : character = other := by
  rcases first with ⟨none, blank⟩ | ⟨⟨column, row, some⟩, pattern, bound, number, set⟩
  · rcases second with ⟨_, otherBlank⟩ | ⟨⟨column, row, some⟩, _⟩
    · rw [blank, otherBlank]
    · exact absurd some (none column row)
  · rcases second with ⟨none, _⟩ | ⟨_, otherPattern, otherBound, otherNumber, otherSet⟩
    · exact absurd some (none column row)
    · have same : pattern = otherPattern := pattern_ext bound otherBound fun column row =>
        Bool.eq_iff_iff.mpr ((set column row).trans (otherSet column row).symm)
      apply Char.toNat_inj.mp
      rw [number, otherNumber, same]

theorem Shows.congr (shown : Shows dots character)
    (same : ∀ column row, dots column row ↔ others column row) : Shows others character := by
  have equal : dots = others := funext fun column => funext fun row => propext (same column row)
  exact equal ▸ shown

theorem Shows.eq_blank (shown : Shows dots character) (none : ∀ column row, ¬ dots column row) :
    character = ' ' := by
  rcases shown with ⟨_, blank⟩ | ⟨⟨column, row, some⟩, _⟩
  · exact blank
  · exact absurd some (none column row)

/-- A blank is no character of the Braille block. -/
theorem not_braille_blank (pattern : Nat) : ' '.toNat ≠ 0x2800 + pattern := by
  have small : ' '.toNat = 32 := rfl
  omega

theorem Shows.ne_newline (shown : Shows dots character) : character ≠ '\n' := by
  rcases shown with ⟨_, blank⟩ | ⟨_, pattern, _, number, _⟩
  · rw [blank]
    decide
  · rintro rfl
    have small : '\n'.toNat = 10 := rfl
    omega

/-- The character determines the dots. -/
theorem Shows.dots_iff (first : Shows dots character) (second : Shows others character) (column : Fin 2)
    (row : Fin 4) : dots column row ↔ others column row := by
  rcases first with ⟨none, blank⟩ | ⟨_, pattern, _, number, set⟩
  · rcases second with ⟨otherNone, _⟩ | ⟨_, pattern, _, number, _⟩
    · exact iff_of_false (none column row) (otherNone column row)
    · exact absurd (blank ▸ number) (not_braille_blank pattern)
  · rcases second with ⟨_, blank⟩ | ⟨_, otherPattern, _, otherNumber, otherSet⟩
    · exact absurd (blank ▸ number) (not_braille_blank pattern)
    · have same : pattern = otherPattern := Nat.add_left_cancel (number.symm.trans otherNumber)
      rw [← set, ← otherSet, same]

/-- The pattern of the dots that are set, as a sum of weights. -/
def pattern (set : Nat → Nat → Bool) : Nat :=
  let dot (dx dy weight : Nat) : Nat := if set dx dy then weight else 0
  dot 0 0 0x01 + dot 0 1 0x02 + dot 0 2 0x04 + dot 1 0 0x08 + dot 1 1 0x10 + dot 1 2 0x20 +
    dot 0 3 0x40 + dot 1 3 0x80

/-- Eight weights make a number with one bit for each of them. -/
private theorem testBit_weights : ∀ b0 b1 b2 b3 b4 b5 b6 b7 : Bool,
    let weigh (set : Bool) (weight : Nat) : Nat := if set then weight else 0
    let sum := weigh b0 0x01 + weigh b1 0x02 + weigh b2 0x04 + weigh b3 0x08 + weigh b4 0x10 +
      weigh b5 0x20 + weigh b6 0x40 + weigh b7 0x80
    sum < 256 ∧ ∀ bit : Fin 8, sum.testBit bit.val = #v[b0, b1, b2, b3, b4, b5, b6, b7][bit.val] := by
  decide +kernel

theorem pattern_lt (set : Nat → Nat → Bool) : pattern set < 256 :=
  (testBit_weights _ _ _ _ _ _ _ _).1

theorem testBit_pattern (set : Nat → Nat → Bool) (column : Fin 2) (row : Fin 4) :
    (pattern set).testBit (place column row) = set column.val row.val := by
  have bits := (testBit_weights (set 0 0) (set 0 1) (set 0 2) (set 1 0) (set 1 1) (set 1 2) (set 0 3)
    (set 1 3)).2
  match column, row with
  | 0, 0 => exact bits 0
  | 0, 1 => exact bits 1
  | 0, 2 => exact bits 2
  | 1, 0 => exact bits 3
  | 1, 1 => exact bits 4
  | 1, 2 => exact bits 5
  | 0, 3 => exact bits 6
  | 1, 3 => exact bits 7

/-- The cell of a pattern shows the dots from which the pattern is made. -/
theorem shows_cell (set : Nat → Nat → Bool) :
    Shows (fun column row => set column.val row.val = true) (Screen.cell (pattern set)) := by
  by_cases empty : pattern set = 0
  · rw [empty]
    refine .inl ⟨fun column row present => ?_, rfl⟩
    have lit := (testBit_pattern set column row).trans present
    rw [empty, Nat.zero_testBit] at lit
    contradiction
  · have valid : (0x2800 + pattern set).isValidChar := .inl (by have := pattern_lt set; omega)
    refine .inr ⟨Classical.byContradiction fun none => empty ?_, pattern set, pattern_lt set, ?_, ?_⟩
    · refine pattern_ext (pattern_lt set) (by decide) fun column row => ?_
      rw [testBit_pattern, Nat.zero_testBit]
      exact Bool.eq_false_iff.mpr fun present => none ⟨column, row, present⟩
    · rw [Screen.cell, if_neg empty, Char.ofNat, dif_pos valid]
      rfl
    · intro column row
      rw [testBit_pattern]

end Braille

end Chip8
