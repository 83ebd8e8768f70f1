import Chip8.Word

namespace Chip8

/-- Two independent countdowns: one that programs read, and one that sounds a tone while it runs. -/
structure Timers where
  delay : Byte := 0
  sound : Byte := 0
deriving DecidableEq

namespace Timers

/-- One less, but never below zero. -/
def countDown (value : Byte) : Byte :=
  if value = 0 then 0 else value - 1

def tick (timers : Timers) : Timers :=
  ⟨countDown timers.delay, countDown timers.sound⟩

def beeping (timers : Timers) : Bool :=
  timers.sound != 0

theorem toNat_countDown (value : Byte) : (countDown value).toNat = value.toNat - 1 := by
  unfold countDown
  split
  · rename_i zero
    simp [zero]
  · rename_i positive
    have one_le : (1 : Byte) ≤ value := by
      rw [UInt8.le_iff_toNat_le]
      have : value.toNat ≠ 0 := fun h => positive (UInt8.toNat_inj.mp h)
      change 1 ≤ value.toNat
      omega
    rw [UInt8.toNat_sub_of_le _ _ one_le]
    rfl

end Timers

end Chip8
