import Chip8.Proofs.Bare.Checked
import Chip8.Screen.Sprite

/-! The loops over a sprite stop at the edge when they clip. A screen selects the pixels that land on it
first and then toggles them, and both ways end alike. -/

namespace Chip8

/-- The pixels during a drawing, and whether a lit one has been turned dark so far. -/
structure Canvas where
  pixels : Array Byte
  collision : Bool

namespace Canvas

/-- Toggles the pixel at two coordinates, which wrap. -/
def toggle (canvas : Canvas) (x y : Nat) : Checked Canvas := do
  let row ← Checked.mul UInt64.size (y % 32) 64
  let index ← Checked.add UInt64.size row (x % 64)
  let pixel ← Checked.get canvas.pixels index
  let pixels ← Checked.set canvas.pixels index (pixel ^^^ 1)
  return { pixels, collision := canvas.collision || pixel == 1 }

/-- Draws the columns of one line that its byte selects. -/
def drawColumns (clip : Bool) (line : Byte) (x y : Nat) : List Nat → Canvas → Checked Canvas
  | [], canvas => .ok canvas
  | column :: rest, canvas => do
    let mask ← Checked.shiftRight 0x80 column
    if line &&& mask = 0 then drawColumns clip line x y rest canvas
    else
      let right ← Checked.add UInt64.size x column
      if clip ∧ 64 ≤ right then return canvas
      else drawColumns clip line x y rest (← canvas.toggle right y)

/-- Draws lines below each other, the first at a row counted from the origin. -/
def drawRows (clip : Bool) (x y : Nat) : Nat → List Byte → Canvas → Checked Canvas
  | _, [], canvas => .ok canvas
  | row, line :: rest, canvas => do
    let below ← Checked.add UInt64.size y row
    if clip ∧ 32 ≤ below then return canvas
    else drawRows clip x y (row + 1) rest (← drawColumns clip line x below (List.range 8) canvas)

/-- A screen with its report, as it is drawn on. -/
def ofScreen (state : Screen × Bool) : Canvas :=
  ⟨(state.1.pixels.map Bool.toUInt8).toArray, state.2⟩

private theorem xor_toUInt8 (lit : Bool) : lit.toUInt8 ^^^ 1 = (!lit).toUInt8 := by
  cases lit <;> rfl

private theorem beq_toUInt8 (lit : Bool) : (lit.toUInt8 == 1) = lit := by
  cases lit <;> rfl

theorem toggle_ofScreen (state : Screen × Bool) (x y : Nat) :
    (ofScreen state).toggle x y = .ok (ofScreen (Screen.plot state (Position.wrap x y))) := by
  obtain ⟨screen, collision⟩ := state
  have row : y % 32 * 64 < UInt64.size := by
    simp only [UInt64.size]
    omega
  have column : y % 32 * 64 + x % 64 < UInt64.size := by
    simp only [UInt64.size]
    omega
  have inside : y % 32 * 64 + x % 64 < 2048 := by omega
  have same : (Position.wrap x y).index.val = y % 32 * 64 + x % 64 := by
    simp only [Position.index, Position.wrap]
    omega
  rw [toggle, Checked.mul_of_lt row, Checked.ok_bind, Checked.add_of_lt column, Checked.ok_bind]
  simp only [ofScreen, Screen.plot, Screen.toggle, Screen.lit, same, Checked.get_toArray _ _ inside,
    Checked.set_toArray _ _ _ inside, Checked.ok_bind, Checked.pure_eq_ok, Vector.getElem_map]
  rw [xor_toUInt8, beq_toUInt8, Vector.map_set]

/-- The mask of a column takes out one bit. -/
theorem and_mask_eq_zero_iff (line : Byte) {column : Nat} (narrow : column < 8) :
    line &&& (0x80 >>> UInt8.ofNat column) = 0 ↔ line.toNat.testBit (7 - column) = false := by
  have power : (0x80 >>> UInt8.ofNat column : Byte).toNat = 2 ^ (7 - column) := by
    match column, narrow with
    | 0, _ | 1, _ | 2, _ | 3, _ | 4, _ | 5, _ | 6, _ | 7, _ => rfl
  rw [← UInt8.toNat_inj, UInt8.toNat_and, power, UInt8.toNat_zero]
  constructor
  · intro empty
    have bit := congrArg (Nat.testBit · (7 - column)) empty
    simpa using bit
  · intro dark
    refine Nat.eq_of_testBit_eq fun place => ?_
    by_cases same : 7 - column = place
    · subst same
      simp [dark]
    · simp [Nat.testBit_two_pow_of_ne same]

/-- The columns of a line that are set and land on the screen, in the order of drawing. -/
def inside (clip : Bool) (line : Byte) (x : Nat) (columns : List Nat) : List Nat :=
  (columns.filter fun column => line.toNat.testBit (7 - column)).filter
    fun column => !clip || decide (x + column < 64)

theorem inside_cons_of_dark (clip : Bool) {line : Byte} (x : Nat) {column : Nat} (rest : List Nat)
    (dark : line.toNat.testBit (7 - column) = false) :
    inside clip line x (column :: rest) = inside clip line x rest := by
  simp [inside, dark]

theorem inside_cons_of_lands {clip : Bool} {line : Byte} {x column : Nat} (rest : List Nat)
    (set : line.toNat.testBit (7 - column) = true) (lands : ¬ (clip = true ∧ 64 ≤ x + column)) :
    inside clip line x (column :: rest) = column :: inside clip line x rest := by
  have kept : (!clip || decide (x + column < 64)) = true := by
    cases clip
    · rfl
    · simp only [true_and, Nat.not_le] at lands
      simp [lands]
  simp [inside, set, kept]

/-- Columns that come in order leave the screen once and for all. -/
theorem inside_cons_of_beyond (line : Byte) {x column : Nat} {rest : List Nat}
    (edge : 64 ≤ x + column) (first : ∀ other ∈ rest, column < other) :
    inside true line x (column :: rest) = [] := by
  simp only [inside, List.filter_eq_nil_iff, List.mem_filter]
  rintro other ⟨member, _⟩
  have after : column ≤ other := by
    rcases List.mem_cons.mp member with rfl | member
    · exact Nat.le_refl _
    · exact Nat.le_of_lt (first other member)
  simp only [Bool.not_true, Bool.false_or, decide_eq_true_eq]
  omega

/-- Stopping at the edge drops no column that would still have landed. -/
theorem drawColumns_ofScreen (clip : Bool) (line : Byte) {x : Nat} (y : Nat) (near : x < 64)
    {columns : List Nat} (ordered : columns.Pairwise (· < ·)) (narrow : ∀ column ∈ columns, column < 8)
    (state : Screen × Bool) :
    drawColumns clip line x y columns (ofScreen state) =
      .ok (ofScreen (((inside clip line x columns).map fun column =>
        Position.wrap (x + column) y).foldl Screen.plot state)) := by
  induction columns generalizing state with
  | nil => rfl
  | cons column rest continued =>
    obtain ⟨first, later⟩ := List.pairwise_cons.mp ordered
    have here : column < 8 := narrow column List.mem_cons_self
    have continued := continued later fun other member => narrow other (List.mem_cons_of_mem _ member)
    have sum : x + column < UInt64.size := by
      simp only [UInt64.size]
      omega
    rw [drawColumns, Checked.shiftRight_of_lt here, Checked.ok_bind, Checked.add_of_lt sum]
    by_cases dark : line.toNat.testBit (7 - column) = false
    · rw [if_pos ((and_mask_eq_zero_iff line here).mpr dark), continued, inside_cons_of_dark _ _ _ dark]
    · rw [if_neg (mt (and_mask_eq_zero_iff line here).mp dark), Checked.ok_bind]
      by_cases beyond : clip = true ∧ 64 ≤ x + column
      · obtain ⟨rfl, edge⟩ := beyond
        rw [if_pos ⟨rfl, edge⟩, inside_cons_of_beyond line edge first]
        rfl
      · have set : line.toNat.testBit (7 - column) = true := by simpa using dark
        rw [if_neg beyond, toggle_ofScreen, Checked.ok_bind, continued, inside_cons_of_lands rest set beyond]
        rfl

/-- Stopping at the bottom drops no line that would still have landed. -/
theorem drawRows_ofScreen (clip : Bool) {x y row : Nat} (near : x < 64) (sprite : Sprite)
    (countable : y + row + sprite.length ≤ UInt64.size) (state : Screen × Bool) :
    drawRows clip x y row sprite (ofScreen state) =
      .ok (ofScreen ((Sprite.landingFrom clip x y row sprite).foldl Screen.plot state)) := by
  induction sprite generalizing row state with
  | nil => rfl
  | cons line rest continued =>
    rw [List.length_cons] at countable
    have sum : y + row < UInt64.size := by omega
    have later : y + (row + 1) + rest.length ≤ UInt64.size := by omega
    rw [drawRows, Checked.add_of_lt sum, Checked.ok_bind, Sprite.landingFrom]
    by_cases below : clip = true ∧ 32 ≤ y + row
    · rw [if_pos below, if_pos below]
      rfl
    · have narrow : ∀ column ∈ List.range 8, column < 8 := fun _ => List.mem_range.mp
      rw [if_neg below, if_neg below, drawColumns_ofScreen clip line _ near List.pairwise_lt_range narrow,
        Checked.ok_bind, continued later, List.foldl_append]
      rfl

/-- Both loops together draw as a screen does, as far as rows can be counted. -/
theorem drawRows_eq_draw (screen : Screen) (x y : Byte) (sprite : Sprite) (clip : Bool)
    (countable : y.toNat % 32 + sprite.length ≤ UInt64.size) :
    drawRows clip (x.toNat % 64) (y.toNat % 32) 0 sprite (ofScreen (screen, false)) =
      .ok (ofScreen (screen.draw x y sprite clip)) :=
  drawRows_ofScreen clip (Nat.mod_lt x.toNat (by decide)) sprite countable (screen, false)

end Canvas

end Chip8
