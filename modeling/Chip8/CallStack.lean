import Chip8.Word

/-! Sixteen slots for return addresses. A slot keeps its content after it is popped. -/

namespace Chip8

structure CallStack where
  slots : Vector Word 16
  depth : Nat
  depth_le : depth ≤ 16
deriving DecidableEq

namespace CallStack

/-- How many return addresses fit. -/
def capacity : Nat := 16

def empty : CallStack := ⟨Vector.replicate 16 0, 0, Nat.zero_le _⟩

/-- The return addresses in use, oldest first. -/
def live (stack : CallStack) : List Word :=
  stack.slots.toList.take stack.depth

/-- Nothing when the stack is full. -/
def push? (stack : CallStack) (address : Word) : Option CallStack :=
  if room : stack.depth < 16 then
    some ⟨stack.slots.set stack.depth address, stack.depth + 1, room⟩
  else none

/-- The newest return address and the stack without it, or nothing when the stack is empty. -/
def pop? (stack : CallStack) : Option (Word × CallStack) :=
  if used : 0 < stack.depth then
    have bound : stack.depth - 1 < 16 := Nat.lt_of_lt_of_le (Nat.sub_lt used Nat.one_pos) stack.depth_le
    some (stack.slots[stack.depth - 1],
      { stack with depth := stack.depth - 1, depth_le := Nat.le_of_lt bound })
  else none

theorem length_live (stack : CallStack) : stack.live.length = stack.depth := by
  simp [live, stack.depth_le]

theorem push?_eq_none_iff {stack : CallStack} {address : Word} :
    stack.push? address = none ↔ stack.depth = 16 := by
  have bound := stack.depth_le
  unfold push?
  split
  · simp only [reduceCtorEq, false_iff]
    omega
  · simp only [true_iff]
    omega

theorem pop?_eq_none_iff {stack : CallStack} : stack.pop? = none ↔ stack.depth = 0 := by
  unfold pop?
  split
  · simp only [reduceCtorEq, false_iff]
    omega
  · simp only [true_iff]
    omega

theorem depth_lt_of_push? {stack grown : CallStack} {address : Word}
    (pushed : stack.push? address = some grown) : stack.depth < 16 := by
  refine Nat.lt_of_le_of_ne stack.depth_le fun full => ?_
  rw [push?_eq_none_iff.mpr full] at pushed
  contradiction

theorem depth_ne_zero_of_pop? {stack : CallStack} {entry : Word × CallStack}
    (popped : stack.pop? = some entry) : stack.depth ≠ 0 := by
  intro empty
  rw [pop?_eq_none_iff.mpr empty] at popped
  contradiction

theorem live_of_push? {stack grown : CallStack} {address : Word}
    (pushed : stack.push? address = some grown) : grown.live = stack.live ++ [address] := by
  unfold push? at pushed
  split at pushed
  · rename_i room
    obtain rfl := Option.some.inj pushed
    have slot : stack.depth < (stack.slots.set stack.depth address).toList.length := by simpa using room
    rw [live, List.take_succ_eq_append_getElem slot]
    simp [live, Vector.toList_set, List.take_set_of_le (Nat.le_refl _)]
  · contradiction

theorem live_of_pop? {stack rest : CallStack} {address : Word}
    (popped : stack.pop? = some (address, rest)) : stack.live = rest.live ++ [address] := by
  unfold pop? at popped
  split at popped
  · rename_i used
    obtain ⟨rfl, rfl⟩ := Prod.mk.inj (Option.some.inj popped)
    have slot : stack.depth - 1 < stack.slots.toList.length := by
      have bound := stack.depth_le
      simp only [Vector.length_toList]
      omega
    have split := List.take_succ_eq_append_getElem slot
    rw [Nat.sub_add_cancel used] at split
    simpa [live] using split
  · contradiction

end CallStack

end Chip8
