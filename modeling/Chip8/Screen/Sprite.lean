import Chip8.Screen.Basic

namespace Chip8

/-- One byte for each row, top row first; the most significant bit is leftmost. -/
abbrev Sprite := List Byte

namespace Sprite

/-- Whether the sprite has a pixel in a row and a column counted from its upper left corner. -/
def bit (sprite : Sprite) (row column : Nat) : Bool :=
  (sprite[row]?.getD 0).toNat.testBit (7 - column)

/-- The set columns of one row, left to right. -/
def columns (line : Byte) : List Nat :=
  (List.range 8).filter fun column => line.toNat.testBit (7 - column)

/-- Where the pixels of a sprite land, row by row from the wrapped origin on. Pixels that leave the screen
wrap, or are dropped by clipping. -/
def landingFrom (clip : Bool) (originX originY : Nat) : Nat → Sprite → List Position
  | _, [] => []
  | row, line :: rest =>
    if clip ∧ 32 ≤ originY + row then []
    else
      let inside := (columns line).filter fun column => !clip || decide (originX + column < 64)
      inside.map (fun column => Position.wrap (originX + column) (originY + row)) ++
        landingFrom clip originX originY (row + 1) rest

/-- Where the pixels of a sprite land on the screen, in the order in which they are drawn. -/
def landing (sprite : Sprite) (x y : Byte) (clip : Bool) : List Position :=
  landingFrom clip (x.toNat % 64) (y.toNat % 32) 0 sprite

end Sprite

namespace Screen

/-- Toggles one pixel, and remembers whether a lit pixel has been turned dark so far. -/
def plot (state : Screen × Bool) (position : Position) : Screen × Bool :=
  let (screen, collision) := state
  let wasLit := screen.lit position
  (screen.toggle position, collision || wasLit)

/-- Toggles pixels one after the other. The result is true when one of them was lit at its turn. -/
def plotAll (screen : Screen) (positions : List Position) : Screen × Bool :=
  positions.foldl plot (screen, false)

/-- Draws a sprite, sets the latch, and reports whether a lit pixel was turned dark. -/
def draw (screen : Screen) (x y : Byte) (sprite : Sprite) (clip : Bool) : Screen × Bool :=
  let (drawn, collision) := screen.plotAll (sprite.landing x y clip)
  ({ drawn with redraw := true }, collision)

end Screen

end Chip8
