import Chip8.Screen.Basic
import Chip8.Text.Numeral

namespace Chip8.Screen

/-- One row of pixels between bars, after its number. -/
def blockRow (screen : Screen) (y : Nat) : String :=
  Numeral.decimal 2 y ++ "|" ++
    String.ofList ((List.range width).map fun x => if screen.pixel x y then '█' else ' ') ++ "|"

/-- All rows of pixels, each on a line of its own. -/
def blocks (screen : Screen) : String :=
  String.join ((List.range height).map fun y => screen.blockRow y ++ "\n")

/-- The dots of a cell as a sum of powers of two. The fourth row was added to the character set later and
has the two highest powers. -/
def dots (screen : Screen) (column line : Nat) : Nat :=
  let dot (dx dy weight : Nat) : Nat := if screen.pixel (2 * column + dx) (4 * line + dy) then weight else 0
  dot 0 0 0x01 + dot 0 1 0x02 + dot 0 2 0x04 + dot 1 0 0x08 + dot 1 1 0x10 + dot 1 2 0x20 +
    dot 0 3 0x40 + dot 1 3 0x80

/-- The character for a pattern of dots: a space for none, else a character of the Braille block. -/
def cell (pattern : Nat) : Char :=
  if pattern = 0 then ' ' else Char.ofNat (0x2800 + pattern)

/-- One line of cells, with an empty cell at its end. -/
def brailleLine (screen : Screen) (line : Nat) : String :=
  String.ofList ((List.range (width / 2)).map fun column => cell (screen.dots column line)) ++ " "

/-- All lines of cells, with an empty line at the end. -/
def braille (screen : Screen) : String :=
  String.join ((List.range (height / 4)).map fun line => screen.brailleLine line ++ "\n") ++
    String.ofList (List.replicate (width / 2 + 1) ' ') ++ "\n"

end Chip8.Screen
