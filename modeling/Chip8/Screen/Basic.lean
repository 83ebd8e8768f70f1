import Chip8.Word

namespace Chip8

/-- A pixel of the screen, counted from the left and from the top. -/
structure Position where
  x : Fin 64
  y : Fin 32
deriving DecidableEq

/-- The pixel that two coordinates reach after wrapping at the edges. -/
def Position.wrap (x y : Nat) : Position :=
  ⟨⟨x % 64, Nat.mod_lt _ (by decide)⟩, ⟨y % 32, Nat.mod_lt _ (by decide)⟩⟩

/-- Where a pixel is kept: rows from the top, each from the left. -/
def Position.index (position : Position) : Fin 2048 :=
  ⟨64 * position.y.val + position.x.val, by omega⟩

theorem Position.index_inj {left right : Position} : left.index = right.index ↔ left = right := by
  refine ⟨fun same => ?_, fun same => same ▸ rfl⟩
  have equal := congrArg Fin.val same
  simp only [Position.index] at equal
  cases left with | mk leftX leftY =>
  cases right with | mk rightX rightY =>
  simp only [Position.mk.injEq, Fin.ext_iff]
  simp only at equal
  omega

structure Screen where
  pixels : Vector Bool 2048
  /-- Set by every drawing operation until the host reads it. -/
  redraw : Bool
deriving DecidableEq

namespace Screen

def width : Nat := 64

def height : Nat := 32

def blank : Screen := ⟨Vector.replicate 2048 false, false⟩

def lit (screen : Screen) (position : Position) : Bool :=
  screen.pixels[position.index.val]

/-- The pixel at two coordinates, which wrap at the edges. -/
def pixel (screen : Screen) (x y : Nat) : Bool :=
  screen.lit (Position.wrap x y)

/-- Turns a lit pixel dark and a dark one lit. -/
def toggle (screen : Screen) (position : Position) : Screen :=
  { screen with pixels := screen.pixels.set position.index.val (!screen.lit position) }

/-- Turns every pixel dark. -/
def clear (_ : Screen) : Screen := ⟨Vector.replicate 2048 false, true⟩

/-- Reads the latch and resets it. -/
def takeRedraw (screen : Screen) : Screen × Bool :=
  ({ screen with redraw := false }, screen.redraw)

theorem ext_redraw {left right : Screen} (pixels : left.pixels = right.pixels)
    (redraw : left.redraw = right.redraw) : left = right := by
  cases left
  cases right
  congr

@[simp] theorem lit_blank (position : Position) : blank.lit position = false := by
  simp [blank, lit]

theorem lit_toggle (screen : Screen) (target position : Position) :
    (screen.toggle target).lit position =
      if position = target then !screen.lit position else screen.lit position := by
  by_cases same : position = target
  · subst same
    simp [toggle, lit]
  · have different : target.index.val ≠ position.index.val := fun equal =>
      same (Position.index_inj.mp (Fin.ext equal)).symm
    simp [toggle, lit, same, Vector.getElem_set_ne _ _ different]

@[simp] theorem redraw_toggle (screen : Screen) (target : Position) :
    (screen.toggle target).redraw = screen.redraw := rfl

end Screen

end Chip8
