import Chip8.Text.Numeral
import Chip8.Text.Record
import Chip8.Word

/-! What a program can do wrong. A fault is recorded and the machine goes on. -/

namespace Chip8

/-- An event raised by the instruction at `pc`. -/
inductive Fault where
  | unrecognized (pc word : Word)
  | stackOverflow (pc : Word)
  | stackUnderflow (pc : Word)
  | protectedWrite (pc target : Word)
deriving DecidableEq

namespace Fault

/-- Where the instruction that raised the fault stands. -/
def pc : Fault → Word
  | unrecognized pc _ => pc
  | stackOverflow pc => pc
  | stackUnderflow pc => pc
  | protectedWrite pc _ => pc

def message (fault : Fault) : String :=
  Numeral.hex 3 fault.pc.toNat ++ ": " ++
    match fault with
    | unrecognized _ word => "opcode " ++ Numeral.hex 4 word.toNat ++ " not recognized"
    | stackOverflow _ => "call with a full stack"
    | stackUnderflow _ => "return with an empty stack"
    | protectedWrite _ target =>
      "write to protected address " ++ Numeral.hex 3 target.toNat ++ " discarded"

/-- The fault in record notation. -/
def describe (fault : Fault) : String :=
  let address := ("addr", Record.nat fault.pc.toNat)
  match fault with
  | unrecognized _ word => Record.text "UnimplementedInstruction" [address, ("word", Record.nat word.toNat)]
  | stackOverflow _ => Record.text "StackOverflow" [address]
  | stackUnderflow _ => Record.text "StackUnderflow" [address]
  | protectedWrite _ target => Record.text "ProtectedWrite" [address, ("target", Record.nat target.toNat)]

end Fault

end Chip8
