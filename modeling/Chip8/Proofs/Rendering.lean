import Chip8.Screen.Picture
import Chip8.Proofs.Braille
import Chip8.Proofs.Grid
import Chip8.Proofs.Strokes

namespace Chip8

/-- A canvas of some width and height. Dots are set on it by their coordinates, and it can be shown as a
text. -/
structure DotCanvas where
  Surface : Type
  clear (width height : Nat) : Surface
  set (surface : Surface) (x y : Nat) : Surface
  frame : Surface → String

namespace DotCanvas

def setAll (canvas : DotCanvas) (surface : canvas.Surface) (dots : List (Nat × Nat)) : canvas.Surface :=
  dots.foldl (fun current dot => canvas.set current dot.1 dot.2) surface

/-- What is known of a canvas as large as the screen, where `lit` says which dots of a surface are lit. -/
structure Lawful (canvas : DotCanvas) (lit : canvas.Surface → Nat → Nat → Prop) : Prop where
  clear_dark (width height x y : Nat) : ¬ lit (canvas.clear width height) x y
  lit_set (surface : canvas.Surface) {x y : Nat} (right : x < 64) (below : y < 32) (column row : Nat) :
    lit (canvas.set surface x y) column row ↔ lit surface column row ∨ column = x ∧ row = y
  /-- The frame has one line and one column of cells more than the dots need, and no newline at its end. -/
  frame_shows (dots : List (Nat × Nat)) (inside : ∀ dot ∈ dots, dot.1 < 64 ∧ dot.2 < 32) :
    let surface := canvas.setAll (canvas.clear 64 32) dots
    ∃ rows, HasLines (canvas.frame surface ++ "\n") rows ∧
      Grid 33 9 (fun column line => Braille.Shows fun dx dy =>
        lit surface (2 * column + dx.val) (4 * line + dy.val)) rows

theorem Lawful.lit_setAll {canvas : DotCanvas} {lit : canvas.Surface → Nat → Nat → Prop}
    (lawful : canvas.Lawful lit) (surface : canvas.Surface) {dots : List (Nat × Nat)}
    (inside : ∀ dot ∈ dots, dot.1 < 64 ∧ dot.2 < 32) (x y : Nat) :
    lit (canvas.setAll surface dots) x y ↔ lit surface x y ∨ (x, y) ∈ dots := by
  induction dots generalizing surface with
  | nil => simp [setAll]
  | cons dot rest ih =>
    have here := inside dot (List.mem_cons_self ..)
    have later := ih (canvas.set surface dot.1 dot.2) fun other member =>
      inside other (List.mem_cons_of_mem _ member)
    have one := lawful.lit_set surface here.1 here.2 x y
    rw [setAll, List.foldl_cons]
    refine later.trans ?_
    rw [one, or_assoc, List.mem_cons, Prod.ext_iff]

end DotCanvas

namespace Screen

/-- The lit pixels, in the order in which the pixels are kept. -/
def litDots (screen : Screen) : List (Nat × Nat) :=
  (screen.pixels.toList.zipIdx.filter Prod.fst).map fun entry => (entry.2 % width, entry.2 / width)

/-- A canvas as large as the screen, with a dot set for each lit pixel. -/
def sketchOn (screen : Screen) (canvas : DotCanvas) : canvas.Surface :=
  canvas.setAll (canvas.clear width height) screen.litDots

/-- The text of the canvas, on lines of its own. -/
def printOn (screen : Screen) (canvas : DotCanvas) : String :=
  canvas.frame (screen.sketchOn canvas) ++ "\n"

theorem getElem?_pixels (screen : Screen) {x y : Nat} (right : x < 64) (below : y < 32) :
    screen.pixels.toList[64 * y + x]? = some (screen.pixel x y) := by
  have inside : 64 * y + x < 2048 := by omega
  simp [pixel, lit, Position.index, Position.wrap, Nat.mod_eq_of_lt right, Nat.mod_eq_of_lt below, inside]

theorem mem_litDots {screen : Screen} {x y : Nat} :
    (x, y) ∈ screen.litDots ↔ x < 64 ∧ y < 32 ∧ screen.pixel x y = true := by
  simp only [litDots, width, List.mem_map, List.mem_filter, Prod.exists, List.mem_zipIdx_iff_getElem?,
    Prod.mk.injEq]
  constructor
  · rintro ⟨lit, index, ⟨kept, set⟩, rfl, rfl⟩
    have inside : index < 2048 := by simpa using (List.getElem?_eq_some_iff.mp kept).1
    have right : index % 64 < 64 := Nat.mod_lt _ (by decide)
    have below : index / 64 < 32 := by omega
    have whole : 64 * (index / 64) + index % 64 = index := Nat.div_add_mod index 64
    have found := screen.getElem?_pixels right below
    rw [whole, kept] at found
    exact ⟨right, below, (Option.some.inj found).symm.trans set⟩
  · rintro ⟨right, below, set⟩
    refine ⟨true, 64 * y + x, ⟨?_, rfl⟩, by omega, by omega⟩
    rw [screen.getElem?_pixels right below, set]

theorem litDots_inside {screen : Screen} (dot : Nat × Nat) (member : dot ∈ screen.litDots) :
    dot.1 < 64 ∧ dot.2 < 32 := by
  obtain ⟨right, below, _⟩ := mem_litDots.mp member
  exact ⟨right, below⟩

theorem lit_sketchOn (screen : Screen) {canvas : DotCanvas} {lit : canvas.Surface → Nat → Nat → Prop}
    (lawful : canvas.Lawful lit) (x y : Nat) :
    lit (screen.sketchOn canvas) x y ↔ x < 64 ∧ y < 32 ∧ screen.pixel x y = true := by
  refine (lawful.lit_setAll (canvas.clear width height) litDots_inside x y).trans ?_
  rw [or_iff_right (lawful.clear_dark width height x y), mem_litDots]

/-- What stands in a place of the printed screen: a cell of eight pixels, or a blank past the last of them. -/
def AsksCell (screen : Screen) (column line : Nat) (character : Char) : Prop :=
  if column < 32 ∧ line < 8 then
    Braille.Shows (fun dx dy => screen.pixel (2 * column + dx.val) (4 * line + dy.val) = true) character
  else character = ' '

theorem AsksCell.unique {screen : Screen} (column line : Nat) (first second : Char)
    (asksFirst : screen.AsksCell column line first) (asksSecond : screen.AsksCell column line second) :
    first = second := by
  unfold AsksCell at asksFirst asksSecond
  split at asksFirst
  · rename_i inside
    rw [if_pos inside] at asksSecond
    exact asksFirst.unique asksSecond
  · rename_i outside
    rw [if_neg outside] at asksSecond
    rw [asksFirst, asksSecond]

/-- On any canvas that keeps its promise the printed screen shows the pixels. -/
theorem grid_printOn (screen : Screen) {canvas : DotCanvas} {lit : canvas.Surface → Nat → Nat → Prop}
    (lawful : canvas.Lawful lit) :
    ∃ rows, HasLines (screen.printOn canvas) rows ∧ Grid 33 9 screen.AsksCell rows := by
  obtain ⟨rows, lines, grid⟩ := lawful.frame_shows screen.litDots litDots_inside
  refine ⟨rows, lines, grid.mono fun column _ line _ character shown => ?_⟩
  have dots := screen.lit_sketchOn lawful
  unfold AsksCell
  split
  · rename_i inside
    refine shown.congr fun dx dy => (dots _ _).trans ⟨fun lit => lit.2.2, fun lit => ⟨?_, ?_, lit⟩⟩
    · have := dx.isLt
      omega
    · have := dy.isLt
      omega
  · rename_i outside
    refine shown.eq_blank fun dx dy lit => outside ?_
    obtain ⟨right, below, _⟩ := (dots _ _).mp lit
    exact ⟨by omega, by omega⟩

/-- The character in a place of the picture in cells. -/
def cellAt (screen : Screen) (column line : Nat) : Char :=
  if column < 32 ∧ line < 8 then cell (screen.dots column line) else ' '

theorem dots_eq_pattern (screen : Screen) (column line : Nat) :
    screen.dots column line =
      Braille.pattern fun dx dy => screen.pixel (2 * column + dx) (4 * line + dy) := rfl

theorem asksCell_cellAt (screen : Screen) (column line : Nat) :
    screen.AsksCell column line (screen.cellAt column line) := by
  unfold AsksCell cellAt
  split
  · rw [dots_eq_pattern]
    exact Braille.shows_cell fun dx dy => screen.pixel (2 * column + dx) (4 * line + dy)
  · rfl

theorem cellAt_ne_newline (screen : Screen) (column line : Nat) : screen.cellAt column line ≠ '\n' := by
  have asked := screen.asksCell_cellAt column line
  unfold AsksCell at asked
  split at asked
  · exact asked.ne_newline
  · rw [asked]
    decide

theorem brailleLine_eq (screen : Screen) {number : Nat} (inside : number < 8) :
    screen.brailleLine number = Grid.line 33 screen.cellAt number := by
  have last : screen.cellAt 32 number = ' ' := if_neg (by omega)
  have others : (List.range 32).map (fun column => screen.cellAt column number) =
      (List.range 32).map fun column => cell (screen.dots column number) :=
    List.map_congr_left fun column member => if_pos ⟨List.mem_range.mp member, inside⟩
  rw [Grid.line, List.range_succ, List.map_append, others, List.map_singleton, last, String.ofList_append]
  rfl

theorem braille_eq (screen : Screen) : screen.braille = Grid.text 33 9 screen.cellAt := by
  have full : (List.range 8).map (fun number => screen.brailleLine number ++ "\n") =
      (List.range 8).map fun number => Grid.line 33 screen.cellAt number ++ "\n" :=
    List.map_congr_left fun number member => by rw [screen.brailleLine_eq (List.mem_range.mp member)]
  have blank (column : Nat) : screen.cellAt column 8 = ' ' := if_neg (by omega)
  have last : Grid.line 33 screen.cellAt 8 = String.ofList (List.replicate 33 ' ') := by
    simp only [Grid.line, blank, List.map_const', List.length_range]
  rw [Grid.text_succ, Grid.text, ← full, last, ← String.append_assoc]
  rfl

/-- The picture in cells is what any canvas prints. -/
theorem printOn_eq_braille (screen : Screen) {canvas : DotCanvas}
    {lit : canvas.Surface → Nat → Nat → Prop} (lawful : canvas.Lawful lit) :
    screen.printOn canvas = screen.braille := by
  obtain ⟨rows, lines, grid⟩ := screen.grid_printOn lawful
  have cells : HasLines (Grid.text 33 9 screen.cellAt) _ := Grid.hasLines_text screen.cellAt_ne_newline
  have places : Grid 33 9 screen.AsksCell _ :=
    Grid.ofPlaces fun column _ line _ => screen.asksCell_cellAt column line
  have same := grid.unique AsksCell.unique places
  rw [braille_eq]
  exact lines.text_eq (same ▸ cells)

/-- The rows stand for the rows of pixels: the two digits of the row, and its pixels between bars. -/
def ShowsBlocks (screen : Screen) (rows : List (List Char)) : Prop :=
  rows.length = 32 ∧ ∀ y < 32, ∃ picture : List Char,
    rows[y]? = some ([Nat.digitChar (y / 10), Nat.digitChar (y % 10), '|'] ++ picture ++ ['|']) ∧
      picture.length = 64 ∧
      ∀ x < 64, picture[x]? = some (if screen.pixel x y = true then '█' else ' ')

/-- The characters of one row of pixels. -/
def blockRowPicture (screen : Screen) (y : Nat) : List Char :=
  (List.range width).map fun x => if screen.pixel x y then '█' else ' '

private theorem toList_number : ∀ y < 32,
    (Numeral.decimal 2 y).toList = [Nat.digitChar (y / 10), Nat.digitChar (y % 10)] := by
  decide

theorem toList_blockRow (screen : Screen) {y : Nat} (below : y < 32) :
    (screen.blockRow y).toList =
      [Nat.digitChar (y / 10), Nat.digitChar (y % 10), '|'] ++ screen.blockRowPicture y ++ ['|'] := by
  simp only [blockRow, String.toList_append, String.toList_ofList, toList_number y below]
  rfl

theorem newline_not_mem_blockRow (screen : Screen) {y : Nat} (below : y < 32) :
    '\n' ∉ (screen.blockRow y).toList := by
  have picture : '\n' ∉ screen.blockRowPicture y := by
    intro newline
    obtain ⟨x, _, same⟩ := List.mem_map.mp newline
    split at same <;> contradiction
  rw [toList_blockRow screen below]
  simp [picture]

theorem showsBlocks_blocks (screen : Screen) :
    ∃ rows, HasLines screen.blocks rows ∧ screen.ShowsBlocks rows := by
  have plain : ∀ text ∈ (List.range 32).map screen.blockRow, '\n' ∉ text.toList := by
    intro text member
    obtain ⟨y, below, rfl⟩ := List.mem_map.mp member
    exact screen.newline_not_mem_blockRow (List.mem_range.mp below)
  have lines := HasLines.join plain
  have joined : String.join (((List.range 32).map screen.blockRow).map (· ++ "\n")) = screen.blocks := by
    rw [List.map_map]
    rfl
  rw [joined] at lines
  refine ⟨_, lines, by simp, fun y below => ⟨screen.blockRowPicture y, ?_, ?_, fun x right => ?_⟩⟩
  · simp [below, toList_blockRow]
  · simp [blockRowPicture, width]
  · simp [blockRowPicture, width, right]

/-- Coordinates inside the screen reach every pixel. -/
theorem pixels_eq_of_pixel {left right : Screen}
    (same : ∀ x < 64, ∀ y < 32, left.pixel x y = right.pixel x y) : left.pixels = right.pixels := by
  refine pixels_eq_of_lit fun position => ?_
  have here := same position.x.val position.x.isLt position.y.val position.y.isLt
  have wrapped : Position.wrap position.x.val position.y.val = position := by
    cases position
    simp [Position.wrap, Nat.mod_eq_of_lt]
  rwa [pixel, pixel, wrapped] at here

private theorem block_inj : ∀ {first second : Bool},
    (if first = true then '█' else ' ') = (if second = true then '█' else ' ') → first = second := by
  decide

theorem pixels_eq_of_blocks {left right : Screen} (same : left.blocks = right.blocks) :
    left.pixels = right.pixels := by
  obtain ⟨rows, lines, _, shown⟩ := left.showsBlocks_blocks
  obtain ⟨others, otherLines, _, otherShown⟩ := right.showsBlocks_blocks
  rw [same] at lines
  have sameRows : rows = others := lines.unique otherLines
  refine pixels_eq_of_pixel fun x inside y below => ?_
  obtain ⟨picture, row, _, pixel⟩ := shown y below
  obtain ⟨other, otherRow, _, otherPixel⟩ := otherShown y below
  have samePicture : picture = other := by
    rw [sameRows, otherRow] at row
    simpa using row.symm
  have block := pixel x inside
  rw [samePicture, otherPixel x inside] at block
  exact (block_inj (Option.some.inj block)).symm

theorem pixels_eq_of_cells {left right : Screen} {rows : List (List Char)}
    (leftGrid : Grid 33 9 left.AsksCell rows) (rightGrid : Grid 33 9 right.AsksCell rows) :
    left.pixels = right.pixels := by
  refine pixels_eq_of_pixel fun x inside y below => ?_
  obtain ⟨character, leftAsks, rightAsks⟩ := leftGrid.exists_answer rightGrid
    (by omega : x / 2 < 33) (by omega : y / 4 < 9)
  -- Only the places that stand for cells ask for dots, and those are all that pixels need.
  have cell : x / 2 < 32 ∧ y / 4 < 8 := by omega
  rw [AsksCell, if_pos cell] at leftAsks rightAsks
  have dot := leftAsks.dots_iff rightAsks ⟨x % 2, Nat.mod_lt _ (by decide)⟩ ⟨y % 4, Nat.mod_lt _ (by decide)⟩
  simp only [Nat.div_add_mod] at dot
  exact Bool.eq_iff_iff.mpr dot

/-- Neither picture looks at the latch. -/
theorem pictures_congr {left right : Screen} (same : left.pixels = right.pixels) :
    left.blocks = right.blocks ∧ left.braille = right.braille := by
  cases left
  cases right
  cases same
  exact ⟨rfl, rfl⟩

/-- Both pictures show every pixel in its place and nothing else, on any lawful canvas. So screens that have
one picture in common have the same pixels. -/
theorem renderings_exact (canvas : DotCanvas) (lit : canvas.Surface → Nat → Nat → Prop)
    (lawful : canvas.Lawful lit) :
    (∀ screen : Screen,
        (∃ rows, HasLines screen.blocks rows ∧ screen.ShowsBlocks rows) ∧
          (∃ rows, HasLines (screen.printOn canvas) rows ∧ Grid 33 9 screen.AsksCell rows) ∧
          screen.printOn canvas = screen.braille) ∧
      ∀ left right : Screen,
        (left.blocks = right.blocks ↔ left.printOn canvas = right.printOn canvas) ∧
          (left.printOn canvas = right.printOn canvas ↔ left.pixels = right.pixels) := by
  have printed (screen : Screen) : screen.printOn canvas = screen.braille := screen.printOn_eq_braille lawful
  have blocksIff (left right : Screen) : left.blocks = right.blocks ↔ left.pixels = right.pixels :=
    ⟨pixels_eq_of_blocks, fun same => (pictures_congr same).1⟩
  have cellsIff (left right : Screen) :
      left.printOn canvas = right.printOn canvas ↔ left.pixels = right.pixels := by
    constructor
    · intro same
      obtain ⟨rows, lines, grid⟩ := left.grid_printOn lawful
      obtain ⟨others, otherLines, otherGrid⟩ := right.grid_printOn lawful
      rw [same] at lines
      have sameRows : rows = others := lines.unique otherLines
      exact pixels_eq_of_cells grid (sameRows ▸ otherGrid)
    · intro same
      rw [printed, printed, (pictures_congr same).2]
  refine ⟨fun screen => ⟨screen.showsBlocks_blocks, screen.grid_printOn lawful, printed screen⟩, ?_⟩
  intro left right
  exact ⟨(blocksIff left right).trans (cellsIff left right).symm, cellsIff left right⟩

end Screen

/-- A canvas that keeps the dots as they were set. -/
structure Sheet where
  columns : Nat
  lines : Nat
  dots : List (Nat × Nat)

namespace Sheet

def Lit (sheet : Sheet) (x y : Nat) : Prop := (x, y) ∈ sheet.dots

def cellAt (sheet : Sheet) (column line : Nat) : Char :=
  Screen.cell (Braille.pattern fun dx dy =>
    sheet.dots.any fun dot => decide (dot.1 = 2 * column + dx ∧ dot.2 = 4 * line + dy))

theorem shows_cellAt (sheet : Sheet) (column line : Nat) :
    Braille.Shows (fun dx dy => sheet.Lit (2 * column + dx.val) (4 * line + dy.val))
      (sheet.cellAt column line) := by
  refine (Braille.shows_cell _).congr fun dx dy => ?_
  simp [Lit]

def canvas : DotCanvas where
  Surface := Sheet
  clear width height := ⟨width / 2 + 1, height / 4, []⟩
  set sheet x y := { sheet with dots := (x, y) :: sheet.dots }
  frame sheet := Grid.text sheet.columns sheet.lines sheet.cellAt ++ Grid.line sheet.columns sheet.cellAt sheet.lines

/-- Setting dots changes nothing of a sheet but its dots. -/
theorem setAll_eq (sheet : Sheet) (dots : List (Nat × Nat)) :
    canvas.setAll sheet dots = { sheet with dots := dots.reverse ++ sheet.dots } := by
  induction dots generalizing sheet with
  | nil => rfl
  | cons dot rest ih =>
    refine (ih (canvas.set sheet dot.1 dot.2)).trans ?_
    simp [canvas]

theorem canvas_lawful : canvas.Lawful Lit where
  clear_dark _ _ _ _ := List.not_mem_nil
  lit_set sheet x y _ _ column row := by
    simp [canvas, Lit, or_comm]
  frame_shows dots _ := by
    intro surface
    have written : surface = ⟨33, 8, dots.reverse ++ []⟩ := setAll_eq _ dots
    have framed : canvas.frame surface ++ "\n" = Grid.text 33 9 surface.cellAt := by
      rw [Grid.text_succ, ← String.append_assoc, written]
      rfl
    refine ⟨_, framed ▸ Grid.hasLines_text fun column line => (surface.shows_cellAt column line).ne_newline, ?_⟩
    exact Grid.ofPlaces fun column _ line _ => surface.shows_cellAt column line

end Sheet

/-- Neither picture of a screen with one pixel lit in a corner is that of a dark screen. -/
theorem Screen.renderings_exact_corner :
    let corner := Position.wrap 63 31
    Sheet.canvas.Lawful Sheet.Lit ∧ (blank.toggle corner).blocks ≠ blank.blocks ∧
      (blank.toggle corner).printOn Sheet.canvas ≠ blank.printOn Sheet.canvas := by
  intro corner
  have ⟨blocksIff, cellsIff⟩ := (renderings_exact Sheet.canvas Sheet.Lit Sheet.canvas_lawful).2
    (blank.toggle corner) blank
  have different : (blank.toggle corner).pixels ≠ blank.pixels := by
    intro same
    have dark : (blank.toggle corner).lit corner = blank.lit corner := by rw [lit, lit, same]
    rw [lit_toggle, if_pos rfl, lit_blank] at dark
    contradiction
  have cells := mt cellsIff.mp different
  exact ⟨Sheet.canvas_lawful, mt blocksIff.mp cells, cells⟩

end Chip8
