import Chip8.Screen.Sprite
import Mathlib.Data.List.Nodup

namespace Chip8

namespace Sprite

/-- Whether a row and a column of a sprite stay on the screen, or need not. -/
def stays (x y : Byte) (clip : Bool) (row column : Nat) : Bool :=
  !clip || (decide (y.toNat % 32 + row < 32) && decide (x.toNat % 64 + column < 64))

/-- The pixel that a row and a column of a sprite land on. -/
def target (x y : Byte) (row column : Nat) : Position :=
  Position.wrap (x.toNat % 64 + column) (y.toNat % 32 + row)

/-- The set bits of a sprite that are drawn, as row and column, row by row. -/
def plotted (sprite : Sprite) (x y : Byte) (clip : Bool) : List (Nat × Nat) :=
  ((List.range sprite.length).product (List.range 8)).filter fun bit =>
    sprite.bit bit.1 bit.2 && stays x y clip bit.1 bit.2

/-- Some set bit of the sprite lands on the position. -/
def Covers (sprite : Sprite) (x y : Byte) (clip : Bool) (position : Position) : Prop :=
  ∃ row < sprite.length, ∃ column < 8,
    sprite.bit row column = true ∧ stays x y clip row column = true ∧ target x y row column = position

instance (sprite : Sprite) (x y : Byte) (clip : Bool) (position : Position) :
    Decidable (sprite.Covers x y clip position) := by
  unfold Covers
  infer_instance

theorem mem_plotted {sprite : Sprite} {x y : Byte} {clip : Bool} {row column : Nat} :
    (row, column) ∈ sprite.plotted x y clip ↔
      row < sprite.length ∧ column < 8 ∧ sprite.bit row column = true ∧
        stays x y clip row column = true := by
  simp [plotted, and_assoc]

/-- The columns of one row that are drawn. -/
def plottedColumns (x y : Byte) (clip : Bool) (row : Nat) (line : Byte) : List Nat :=
  (List.range 8).filter fun column => line.toNat.testBit (7 - column) && stays x y clip row column

theorem plottedColumns_of_below (x : Byte) {y : Byte} {row : Nat} (line : Byte)
    (below : 32 ≤ y.toNat % 32 + row) : plottedColumns x y true row line = [] := by
  have gone : ¬ y.toNat % 32 + row < 32 := by omega
  simp [plottedColumns, stays, gone]

theorem plottedColumns_of_not_below (x : Byte) {y : Byte} {clip : Bool} {row : Nat} (line : Byte)
    (inside : ¬ (clip = true ∧ 32 ≤ y.toNat % 32 + row)) :
    plottedColumns x y clip row line =
      (columns line).filter fun column => !clip || decide (x.toNat % 64 + column < 64) := by
  have same (column : Nat) :
      stays x y clip row column = (!clip || decide (x.toNat % 64 + column < 64)) := by
    cases clip with
    | false => rfl
    | true =>
      have visible : y.toNat % 32 + row < 32 := by
        simp only [true_and] at inside
        omega
      simp [stays, visible]
  simp only [plottedColumns, columns, same, List.filter_filter, Bool.and_comm]

/-- Walking down the rows and stopping at the bottom edge meets the same pixels as trying every bit. -/
private theorem landingFrom_eq_flatMap (x y : Byte) (clip : Bool) (start : Nat) (sprite : Sprite) :
    landingFrom clip (x.toNat % 64) (y.toNat % 32) start sprite =
      (List.range sprite.length).flatMap fun row =>
        (plottedColumns x y clip (start + row) (sprite[row]?.getD 0)).map (target x y (start + row)) := by
  induction sprite generalizing start with
  | nil => rfl
  | cons line rest ih =>
    rw [landingFrom, List.length_cons, List.range_succ_eq_map, List.flatMap_cons, List.flatMap_map]
    by_cases below : clip = true ∧ 32 ≤ y.toNat % 32 + start
    · obtain ⟨rfl, edge⟩ := below
      have gone (row : Nat) (line : Byte) : plottedColumns x y true (start + row) line = [] :=
        plottedColumns_of_below x line (by omega)
      rw [if_pos ⟨rfl, edge⟩]
      simp only [gone, List.map_nil]
      exact (List.flatMap_eq_nil_iff.mpr fun _ _ => rfl).symm
    · have later (row : Nat) : start + 1 + row = start + (row + 1) := by omega
      have first := plottedColumns_of_not_below x line below
      rw [if_neg below, ih]
      simp only [later, List.getElem?_cons_zero, List.getElem?_cons_succ, Option.getD_some,
        Nat.add_zero, Nat.succ_eq_add_one, first]
      rfl

theorem landing_eq_map (sprite : Sprite) (x y : Byte) (clip : Bool) :
    sprite.landing x y clip =
      (sprite.plotted x y clip).map fun bit => target x y bit.1 bit.2 := by
  have rows := landingFrom_eq_flatMap x y clip 0 sprite
  simp only [Nat.zero_add] at rows
  rw [landing, rows]
  simp only [plotted, List.product, List.filter_flatMap, List.map_flatMap, List.filter_map, List.map_map]
  rfl

/-- How many bits of a sprite are drawn on a pixel. -/
def hits (sprite : Sprite) (x y : Byte) (clip : Bool) (position : Position) : Nat :=
  (sprite.plotted x y clip).countP fun bit => target x y bit.1 bit.2 = position

theorem count_landing (sprite : Sprite) (x y : Byte) (clip : Bool) (position : Position) :
    (sprite.landing x y clip).count position = sprite.hits x y clip position := by
  rw [landing_eq_map, List.count, List.countP_map]
  rfl

/-- Some bit of a sprite lands on each pixel that is reached, and the other way round. -/
theorem mem_landing {sprite : Sprite} {x y : Byte} {clip : Bool} {position : Position} :
    position ∈ sprite.landing x y clip ↔ sprite.Covers x y clip position := by
  rw [landing_eq_map, List.mem_map]
  constructor
  · rintro ⟨⟨row, column⟩, drawn, reached⟩
    obtain ⟨inside, narrow, set, kept⟩ := mem_plotted.mp drawn
    exact ⟨row, inside, column, narrow, set, kept, reached⟩
  · rintro ⟨row, inside, column, narrow, set, kept, reached⟩
    exact ⟨(row, column), mem_plotted.mpr ⟨inside, narrow, set, kept⟩, reached⟩

/-- Two bits within one width and one height of the screen do not land on the same pixel. -/
theorem target_inj {x y : Byte} {row column otherRow otherColumn : Nat} (low : row < 32)
    (narrow : column < 8) (otherLow : otherRow < 32) (otherNarrow : otherColumn < 8)
    (same : target x y row column = target x y otherRow otherColumn) :
    row = otherRow ∧ column = otherColumn := by
  simp only [target, Position.wrap, Position.mk.injEq, Fin.mk.injEq] at same
  omega

/-- A sprite no taller than the screen reaches no pixel twice. -/
theorem nodup_landing {sprite : Sprite} (x y : Byte) (clip : Bool) (low : sprite.length ≤ 32) :
    (sprite.landing x y clip).Nodup := by
  have bits : (sprite.plotted x y clip).Nodup :=
    (List.nodup_range.product List.nodup_range).filter _
  rw [landing_eq_map]
  refine bits.map_on ?_
  rintro ⟨row, column⟩ drawn ⟨otherRow, otherColumn⟩ otherDrawn same
  obtain ⟨inside, narrow, _⟩ := mem_plotted.mp drawn
  obtain ⟨otherInside, otherNarrow, _⟩ := mem_plotted.mp otherDrawn
  obtain ⟨rfl, rfl⟩ := target_inj (Nat.lt_of_lt_of_le inside low) narrow
    (Nat.lt_of_lt_of_le otherInside low) otherNarrow same
  rfl

/-- A sprite no taller than the screen hits the pixels that it covers once. -/
theorem hits_of_low {sprite : Sprite} (x y : Byte) (clip : Bool) (low : sprite.length ≤ 32)
    (position : Position) :
    sprite.hits x y clip position = if sprite.Covers x y clip position then 1 else 0 := by
  rw [← count_landing, (nodup_landing x y clip low).count]
  exact if_congr mem_landing rfl rfl

end Sprite

namespace Screen

/-- Pixels toggled one after the other: each ends up changed if it was toggled an odd number of times. -/
theorem lit_foldl_plot (state : Screen × Bool) (positions : List Position) (position : Position) :
    (positions.foldl plot state).1.lit position =
      (state.1.lit position ^^ decide (positions.count position % 2 = 1)) := by
  induction positions generalizing state with
  | nil => simp
  | cons first rest ih =>
    have drawn : (plot state first).1 = state.1.toggle first := rfl
    rw [List.foldl_cons, ih, drawn, lit_toggle]
    by_cases same : position = first
    · subst same
      have odd : decide ((rest.count position + 1) % 2 = 1) = !decide (rest.count position % 2 = 1) := by
        rw [← decide_not]
        exact decide_eq_decide.mpr (by omega)
      rw [if_pos rfl, List.count_cons_self, odd, Bool.not_xor, Bool.xor_not]
    · rw [if_neg same, List.count_cons_of_ne (Ne.symm same)]

/-- A pixel is lit when its turn comes: it is lit already and is toggled, or it is toggled twice. -/
def Collides (screen : Screen) (positions : List Position) (position : Position) : Prop :=
  (screen.lit position = true ∧ 1 ≤ positions.count position) ∨ 2 ≤ positions.count position

theorem collides_cons_iff (screen : Screen) (first : Position) (rest : List Position)
    (position : Position) :
    screen.Collides (first :: rest) position ↔
      (position = first ∧ screen.lit first = true) ∨ (screen.toggle first).Collides rest position := by
  by_cases same : position = first
  · subst same
    simp only [Collides, lit_toggle, ↓reduceIte, List.count_cons_self, true_and]
    cases screen.lit position with
    | true => simp
    | false =>
      -- The first hit lights the pixel, so one more is enough.
      simp only [Bool.not_false, Bool.false_eq_true, false_and, false_or, true_and]
      omega
  · simp only [Collides, lit_toggle, same, ↓reduceIte, List.count_cons_of_ne (Ne.symm same), false_and,
      false_or]

theorem collision_foldl_plot_iff (state : Screen × Bool) (positions : List Position) :
    (positions.foldl plot state).2 = true ↔
      state.2 = true ∨ ∃ position, state.1.Collides positions position := by
  induction positions generalizing state with
  | nil => simp [Collides]
  | cons first rest ih =>
    have drawn : (plot state first).1 = state.1.toggle first := rfl
    have report : (plot state first).2 = (state.2 || state.1.lit first) := rfl
    rw [List.foldl_cons, ih, drawn, report]
    simp only [collides_cons_iff, exists_or, exists_eq_left, Bool.or_eq_true, or_assoc]

/-- Drawing toggles each pixel as often as the sprite hits it. -/
theorem lit_draw (screen : Screen) (x y : Byte) (sprite : Sprite) (clip : Bool) (position : Position) :
    (screen.draw x y sprite clip).1.lit position =
      (screen.lit position ^^ decide (sprite.hits x y clip position % 2 = 1)) := by
  rw [← Sprite.count_landing]
  exact lit_foldl_plot (screen, false) (sprite.landing x y clip) position

theorem collision_draw_iff (screen : Screen) (x y : Byte) (sprite : Sprite) (clip : Bool) :
    (screen.draw x y sprite clip).2 = true ↔
      ∃ position, (screen.lit position = true ∧ 1 ≤ sprite.hits x y clip position) ∨
        2 ≤ sprite.hits x y clip position := by
  have report := collision_foldl_plot_iff (screen, false) (sprite.landing x y clip)
  simp only [Bool.false_eq_true, false_or, Collides, Sprite.count_landing] at report
  exact report

/-- Drawing is exclusive or, as long as the sprite does not wrap onto itself. -/
theorem lit_draw_of_low (screen : Screen) {sprite : Sprite} (x y : Byte) (clip : Bool)
    (low : sprite.length ≤ 32) (position : Position) :
    (screen.draw x y sprite clip).1.lit position =
      (screen.lit position ^^ decide (sprite.Covers x y clip position)) := by
  rw [lit_draw, Sprite.hits_of_low x y clip low]
  by_cases covered : sprite.Covers x y clip position
  · simp [covered]
  · simp [covered]

theorem lit_draw_eq_not_iff_of_low (screen : Screen) {sprite : Sprite} (x y : Byte) (clip : Bool)
    (low : sprite.length ≤ 32) (position : Position) :
    (screen.draw x y sprite clip).1.lit position = !screen.lit position ↔
      sprite.Covers x y clip position := by
  rw [lit_draw_of_low screen x y clip low]
  by_cases covered : sprite.Covers x y clip position
  · simp [covered]
  · simp [covered]

/-- What is reported while a sprite is drawn shows when it has been drawn, as long as the sprite does not
wrap onto itself: a pixel that was lit is dark. -/
theorem collision_draw_iff_of_low (screen : Screen) {sprite : Sprite} (x y : Byte) (clip : Bool)
    (low : sprite.length ≤ 32) :
    (screen.draw x y sprite clip).2 = true ↔
      ∃ position, screen.lit position = true ∧
        (screen.draw x y sprite clip).1.lit position = false := by
  rw [collision_draw_iff]
  refine exists_congr fun position => ?_
  rw [lit_draw_of_low screen x y clip low, Sprite.hits_of_low x y clip low]
  by_cases covered : sprite.Covers x y clip position
  · simp [covered]
  · simp [covered]

end Screen

end Chip8
