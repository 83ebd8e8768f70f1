import Chip8.Proofs.Drawing
import Mathlib.Data.List.DropRight

namespace Chip8

/-- A sprite with the place where it is drawn. -/
structure Stroke where
  x : Byte
  y : Byte
  sprite : Sprite
  clip : Bool

namespace Stroke

/-- How many bits of the stroke land on a pixel. -/
def hits (stroke : Stroke) (position : Position) : Nat :=
  stroke.sprite.hits stroke.x stroke.y stroke.clip position

end Stroke

namespace Screen

/-- What changes the picture on a screen. -/
inductive Action where
  | clear
  | draw (stroke : Stroke)

namespace Action

end Action

/-- The pixels are all that there is to see. -/
theorem pixels_eq_of_lit {left right : Screen}
    (same : ∀ position, left.lit position = right.lit position) : left.pixels = right.pixels := by
  refine Vector.ext fun index bound => ?_
  have here := same (Position.wrap index (index / 64))
  have kept : 64 * (index / 64 % 32) + index % 64 = index := by omega
  simpa only [lit, Position.wrap, Position.index, kept] using here

end Screen

namespace Screen

end Screen

end Chip8
