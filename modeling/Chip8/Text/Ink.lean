namespace Chip8

/-- The sequences that a terminal needs before and after a coloured text. -/
structure Ink where
  opening : String
  closing : String
deriving DecidableEq

namespace Ink

def paint (ink : Ink) (text : String) : String :=
  ink.opening ++ text ++ ink.closing

/-- The escape sequence that selects the given display attributes. -/
def sequence (codes : String) : String :=
  "\x1b[" ++ codes ++ "m"

def ofCodes (opening closing : String) : Ink :=
  ⟨sequence opening, sequence closing⟩

/-- No colour at all. -/
def plain : Ink := ⟨"", ""⟩

def green : Ink := ofCodes "32" "0"

def boldRed : Ink := ofCodes "31;1" "0"

def bold : Ink := ofCodes "1" "0"

def red : Ink := ofCodes "31" "39"

def brightYellow : Ink := ofCodes "93" "39"

def dim : Ink := ofCodes "90" "39"

/-- What goes wrong is reported in bold inside red. -/
def alarm (text : String) : String :=
  red.paint (bold.paint text)

@[simp] theorem paint_plain (text : String) : plain.paint text = text := by
  simp [paint, plain]

end Ink

end Chip8
