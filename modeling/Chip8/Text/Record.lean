import Chip8.Text.Numeral

namespace Chip8.Record

def fieldList (fields : List (String × String)) : String :=
  ", ".intercalate (fields.map fun (name, value) => name ++ ": " ++ value)

/-- A name alone when there are no fields. -/
def text (name : String) (fields : List (String × String)) : String :=
  match fields with
  | [] => name
  | fields => name ++ " \x7b " ++ fieldList fields ++ " \x7d"

/-- A record that does not show all of its fields ends in two dots. -/
def openText (name : String) (fields : List (String × String)) : String :=
  name ++ " \x7b " ++ fieldList fields ++ ", .. \x7d"

def list (items : List String) : String :=
  "[" ++ ", ".intercalate items ++ "]"

def bool (value : Bool) : String :=
  if value then "true" else "false"

def nat (value : Nat) : String :=
  Numeral.decimal 1 value

end Chip8.Record
