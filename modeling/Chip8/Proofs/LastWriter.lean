import Chip8.Memory

namespace Chip8

namespace Memory

section Update

variable {memory next : Memory} {program : List Byte} {address : Word} {byte : Byte}

end Update

section Answers

variable (memory : Memory)

end Answers

section Get

variable (memory : Memory) {location : Address}

end Get

end Memory

end Chip8
