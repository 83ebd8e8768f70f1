namespace Chip8.Numeral

/-- Lower-case hexadecimal with at least `width` digits. -/
def hex (width value : Nat) : String :=
  String.ofList ((Nat.toDigits 16 value).leftpad width '0')

/-- Upper-case hexadecimal without padding. -/
def upperHex (value : Nat) : String :=
  String.ofList ((Nat.toDigits 16 value).map Char.toUpper)

/-- Decimal with at least `width` digits. -/
def decimal (width value : Nat) : String :=
  String.ofList ((Nat.toDigits 10 value).leftpad width '0')

/-- Why a text is not a numeral. -/
inductive ReadError where
  | empty
  | invalidDigit
  | tooLarge
deriving DecidableEq

def ReadError.message : ReadError → String
  | .empty => "cannot parse integer from empty string"
  | .invalidDigit => "invalid digit found in string"
  | .tooLarge => "number too large to fit in target type"

/-- The value of a digit in either case, when the radix has that digit. -/
def digit? (radix : Nat) (c : Char) : Option Nat :=
  let value? :=
    if '0' ≤ c ∧ c ≤ '9' then some (c.toNat - '0'.toNat)
    else if 'a' ≤ c ∧ c ≤ 'z' then some (c.toNat - 'a'.toNat + 10)
    else if 'A' ≤ c ∧ c ≤ 'Z' then some (c.toNat - 'A'.toNat + 10)
    else none
  value?.filter (· < radix)

/-- Appends digits to a number already read, and stops at the first one that is no digit or that takes the
number past `limit`. -/
def readDigits (radix limit : Nat) : Nat → List Char → Except ReadError Nat
  | value, [] => .ok value
  | value, c :: rest =>
    match digit? radix c with
    | none => .error .invalidDigit
    | some digit =>
      if value * radix + digit ≤ limit then readDigits radix limit (value * radix + digit) rest
      else .error .tooLarge

/-- Reads a whole text as a number up to `limit`. One leading plus sign is allowed; a sign alone is no
numeral. -/
def read (radix limit : Nat) (text : String) : Except ReadError Nat :=
  match text.toList with
  | [] => .error .empty
  | ['+'] => .error .invalidDigit
  | '+' :: digits => readDigits radix limit 0 digits
  | digits => readDigits radix limit 0 digits

end Chip8.Numeral
