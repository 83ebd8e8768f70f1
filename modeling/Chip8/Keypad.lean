import Chip8.Word

namespace Chip8

/-- A key of the pad, `0` to `F`. -/
abbrev Key := Fin 16

/-- Which keys are held. -/
structure Keypad where
  held : Vector Bool 16
deriving DecidableEq

namespace Keypad

def empty : Keypad := ⟨Vector.replicate 16 false⟩

/-- Presses or releases a key, and reports whether that changed anything. There is nothing to change at a key
that does not exist. -/
def set (keypad : Keypad) (key : Nat) (pressed : Bool) : Keypad × Bool :=
  if inRange : key < 16 then
    if keypad.held[key] = pressed then (keypad, false)
    else (⟨keypad.held.set key pressed⟩, true)
  else (keypad, false)

/-- The key that a byte names: its low four bits. -/
def keyOfByte (byte : Byte) : Key :=
  ⟨byte.toNat % 16, Nat.mod_lt _ (by decide)⟩

def isHeld (keypad : Keypad) (key : Key) : Bool :=
  keypad.held[key]

/-- The lowest key held. -/
def lowestHeld (keypad : Keypad) : Option Key :=
  (List.finRange 16).find? keypad.isHeld

/-- The keys held, lowest first. -/
def heldKeys (keypad : Keypad) : List Key :=
  (List.finRange 16).filter keypad.isHeld

theorem lowestHeld_eq_head? (keypad : Keypad) : keypad.lowestHeld = keypad.heldKeys.head? := by
  simp [lowestHeld, heldKeys, List.head?_filter]

end Keypad

end Chip8
