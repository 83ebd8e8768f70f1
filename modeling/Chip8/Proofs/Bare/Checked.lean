import Chip8.Word

/-! Checked access and checked numbers: what stops a machine whose arrays and numbers promise nothing about
their sizes. -/

namespace Chip8

/-- Why a machine stops. -/
inductive Trap where
  /-- An index or a slice reaches past the end of its array. -/
  | outOfRange
  /-- A number leaves its width. -/
  | overflow
  /-- No further step can be counted. -/
  | counterFull
deriving DecidableEq

abbrev Checked := Except Trap

namespace Checked

variable {Cell : Type}

def get (cells : Array Cell) (index : Nat) : Checked Cell :=
  match cells[index]? with
  | some cell => .ok cell
  | none => .error .outOfRange

def set (cells : Array Cell) (index : Nat) (cell : Cell) : Checked (Array Cell) :=
  if inside : index < cells.size then .ok (cells.set index cell) else .error .outOfRange

/-- The cells before an index. -/
def slice (cells : Array Cell) (count : Nat) : Checked (List Cell) :=
  if count ≤ cells.size then .ok (cells.toList.take count) else .error .outOfRange

/-- Puts a list over the cells from one index to before another, of which there must be as many. -/
def overwrite (cells : Array Cell) (start stop : Nat) (source : List Cell) : Checked (Array Cell) :=
  if start + source.length = stop ∧ stop ≤ cells.size then
    .ok ⟨cells.toList.take start ++ (source ++ cells.toList.drop stop)⟩
  else .error .outOfRange

/-- A sum that stays below a limit. -/
def add (limit first second : Nat) : Checked Nat :=
  if first + second < limit then .ok (first + second) else .error .overflow

/-- A product that stays below a limit. -/
def mul (limit first second : Nat) : Checked Nat :=
  if first * second < limit then .ok (first * second) else .error .overflow

/-- A difference that stays above zero. -/
def sub (first second : Nat) : Checked Nat :=
  if second ≤ first then .ok (first - second) else .error .overflow

/-- A byte moved to the right by less than its width. -/
def shiftRight (byte : Byte) (count : Nat) : Checked Byte :=
  if count < 8 then .ok (byte >>> UInt8.ofNat count) else .error .overflow

@[simp] theorem ok_bind {First Second : Type} (value : First) (next : First → Checked Second) :
    (Except.ok value >>= next : Checked Second) = next value := rfl

@[simp] theorem pure_eq_ok {Value : Type} (value : Value) :
    (pure value : Checked Value) = .ok value := rfl

@[simp] theorem bind_ok {Value : Type} (computation : Checked Value) :
    (computation >>= fun value => Except.ok value) = computation := by
  cases computation <;> rfl

@[simp] theorem get_toArray {size : Nat} (cells : Vector Cell size) (index : Nat)
    (inside : index < size) : get cells.toArray index = .ok cells[index] := by
  have present : cells.toArray[index]? = some cells[index] := by simp [inside]
  rw [get, present]

@[simp] theorem set_toArray {size : Nat} (cells : Vector Cell size) (index : Nat) (cell : Cell)
    (inside : index < size) : set cells.toArray index cell = .ok (cells.set index cell).toArray := by
  have bound : index < cells.toArray.size := by simpa using inside
  rw [set, dif_pos bound]
  rfl

theorem slice_toArray {size : Nat} (cells : Vector Cell size) {count : Nat} (inside : count ≤ size) :
    slice cells.toArray count = .ok (cells.toList.take count) := by
  have bound : count ≤ cells.toArray.size := by simpa using inside
  rw [slice, if_pos bound]
  rfl

/-- Overwriting keeps the size, and changes the cells that the source covers. -/
theorem overwrite_toArray {size : Nat} (cells : Vector Cell size) (start : Nat) (source : List Cell)
    (inside : start + source.length ≤ size) :
    overwrite cells.toArray start (start + source.length) source =
      .ok (Vector.ofFn fun index : Fin size =>
        if index.val < start then cells[index.val]
        else source[index.val - start]?.getD cells[index.val]).toArray := by
  have bound : start + source.length ≤ cells.toArray.size := by simpa using inside
  rw [overwrite, if_pos ⟨rfl, bound⟩]
  refine congrArg Except.ok (Array.ext ?_ fun index left right => ?_)
  · simp only [List.size_toArray, List.length_append, List.length_take, List.length_drop,
      Array.length_toList, Vector.size_toArray]
    omega
  · have within : index < size := by simpa using right
    simp only [List.getElem_toArray, Vector.getElem_toArray, Vector.getElem_ofFn]
    -- Before the source, inside it, and behind it.
    by_cases early : index < start
    · rw [List.getElem_append_left (by simp; omega)]
      simp [early]
    · rw [List.getElem_append_right (by simp; omega)]
      by_cases covered : index - start < source.length
      · rw [List.getElem_append_left (by simp; omega)]
        have same : index - min start size = index - start := by omega
        simp [early, covered, same]
      · rw [List.getElem_append_right (by simp; omega)]
        have same : start + source.length + (index - min start size - source.length) = index := by omega
        simp [early, covered, same]

theorem add_of_lt {limit first second : Nat} (inside : first + second < limit) :
    add limit first second = .ok (first + second) := if_pos inside

theorem mul_of_lt {limit first second : Nat} (inside : first * second < limit) :
    mul limit first second = .ok (first * second) := if_pos inside

theorem sub_of_le {first second : Nat} (inside : second ≤ first) :
    sub first second = .ok (first - second) := if_pos inside

theorem shiftRight_of_lt {byte : Byte} {count : Nat} (inside : count < 8) :
    shiftRight byte count = .ok (byte >>> UInt8.ofNat count) := if_pos inside

end Checked

end Chip8
