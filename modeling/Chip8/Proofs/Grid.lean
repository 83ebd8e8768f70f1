namespace Chip8

/-- Cut at its newlines, the text gives these lines, and nothing is left behind the last newline. -/
def HasLines (text : String) (rows : List (List Char)) : Prop :=
  text.toList.splitOn '\n' = rows ++ [[]]

namespace HasLines

theorem unique {text : String} {rows others : List (List Char)} (first : HasLines text rows)
    (second : HasLines text others) : rows = others :=
  List.append_cancel_right (first.symm.trans second)

theorem text_eq {left right : String} {rows : List (List Char)} (first : HasLines left rows)
    (second : HasLines right rows) : left = right := by
  apply String.toList_inj.mp
  calc left.toList
    _ = ['\n'].intercalate (left.toList.splitOn '\n') := (List.intercalate_splitOn '\n').symm
    _ = ['\n'].intercalate (right.toList.splitOn '\n') := by rw [first, ← second]
    _ = right.toList := List.intercalate_splitOn '\n'

theorem join {texts : List String} (plain : ∀ text ∈ texts, '\n' ∉ text.toList) :
    HasLines (String.join (texts.map (· ++ "\n"))) (texts.map String.toList) := by
  rw [HasLines, String.toList_join]
  induction texts with
  | nil => rfl
  | cons text rest ih =>
    have continued := ih fun other member => plain other (List.mem_cons_of_mem _ member)
    have first := plain text (List.mem_cons_self ..)
    have newline : (text ++ "\n").toList = text.toList ++ ['\n'] := String.toList_append
    rw [List.map_cons, List.flatMap_cons, newline, List.append_assoc, List.singleton_append,
      List.splitOn_append_cons_self_of_not_mem first, continued]
    rfl

end HasLines

/-- A rectangle of characters, each of which is what its column and its line ask for. -/
structure Grid (width height : Nat) (asks : Nat → Nat → Char → Prop)
    (rows : List (List Char)) : Prop where
  height : rows.length = height
  width : ∀ row ∈ rows, row.length = width
  answers (column line : Nat) (below : line < rows.length) (right : column < rows[line].length) :
    asks column line rows[line][column]

namespace Grid

variable {width height : Nat} {asks others : Nat → Nat → Char → Prop} {rows otherRows : List (List Char)}

theorem width_getElem (grid : Grid width height asks rows) {line : Nat} (below : line < rows.length) :
    rows[line].length = width :=
  grid.width _ (List.getElem_mem below)

theorem mono (grid : Grid width height asks rows)
    (weaker : ∀ column < width, ∀ line < height, ∀ character, asks column line character →
      others column line character) : Grid width height others rows where
  height := grid.height
  width := grid.width
  answers column line below right := by
    have narrow : column < width := grid.width_getElem below ▸ right
    have low : line < height := grid.height ▸ below
    exact weaker column narrow line low _ (grid.answers column line below right)

/-- A character in a place of a grid answers to both, if the rows are both. -/
theorem exists_answer (grid : Grid width height asks rows) (other : Grid width height others rows)
    {column line : Nat} (right : column < width) (below : line < height) :
    ∃ character, asks column line character ∧ others column line character := by
  have low : line < rows.length := grid.height ▸ below
  have narrow : column < rows[line].length := (grid.width_getElem low).symm ▸ right
  exact ⟨_, grid.answers column line low narrow, other.answers column line low narrow⟩

/-- Where each place asks for one character at most, there is one grid at most. -/
theorem unique (single : ∀ column line first second, asks column line first → asks column line second →
      first = second)
    (left : Grid width height asks rows) (right : Grid width height asks otherRows) : rows = otherRows := by
  refine List.ext_getElem (left.height.trans right.height.symm) fun line inLeft inRight => ?_
  have sameWidth := (left.width_getElem inLeft).trans (right.width_getElem inRight).symm
  refine List.ext_getElem sameWidth fun column inRow inOther => ?_
  exact single column line _ _ (left.answers column line inLeft inRow)
    (right.answers column line inRight inOther)

/-- A grid that is written down place by place. -/
theorem ofPlaces {character : Nat → Nat → Char}
    (answer : ∀ column < width, ∀ line < height, asks column line (character column line)) :
    Grid width height asks
      ((List.range height).map fun line => (List.range width).map fun column => character column line) where
  height := by simp
  width row member := by
    obtain ⟨line, _, rfl⟩ := List.mem_map.mp member
    simp
  answers column line below right := by
    simp only [List.getElem_map, List.getElem_range]
    exact answer column (by simpa using right) line (by simpa using below)

/-- The characters of all places of one line. -/
def line (width : Nat) (character : Nat → Nat → Char) (number : Nat) : String :=
  String.ofList ((List.range width).map fun column => character column number)

/-- The characters of all places, a newline after each line of them. -/
def text (width height : Nat) (character : Nat → Nat → Char) : String :=
  String.join ((List.range height).map fun number => line width character number ++ "\n")

theorem text_succ (width height : Nat) (character : Nat → Nat → Char) :
    text width (height + 1) character =
      text width height character ++ (line width character height ++ "\n") := by
  rw [text, List.range_succ, List.map_append, String.join_append]
  rfl

theorem hasLines_text {character : Nat → Nat → Char}
    (plain : ∀ column line, character column line ≠ '\n') :
    HasLines (text width height character)
      ((List.range height).map fun line => (List.range width).map fun column => character column line) := by
  have lines : ∀ text ∈ (List.range height).map (line width character), '\n' ∉ text.toList := by
    intro text member newline
    obtain ⟨number, _, rfl⟩ := List.mem_map.mp member
    rw [line, String.toList_ofList] at newline
    obtain ⟨column, _, same⟩ := List.mem_map.mp newline
    exact plain column number same
  simpa [text, line, Function.comp_def] using HasLines.join lines

end Grid

end Chip8
