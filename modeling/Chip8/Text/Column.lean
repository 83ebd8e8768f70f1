namespace Chip8.Column

/-- The text at the left of its column. A text that is too wide is kept whole. -/
def left (width : Nat) (text : String) : String :=
  String.ofList (text.toList.rightpad width ' ')

/-- The text at the right of its column. A text that is too wide is kept whole. -/
def right (width : Nat) (text : String) : String :=
  String.ofList (text.toList.leftpad width ' ')

end Chip8.Column
