namespace Chip8

/-- One memory cell or data register. -/
abbrev Byte := UInt8

/-- An instruction, or an address as the machine stores it: sixteen bits, of which memory uses twelve. -/
abbrev Word := UInt16

/-- A data register, `v0` to `vF`. -/
abbrev Register := Fin 16

/-- A location in memory. -/
abbrev Address := Fin 4096

/-- The register that arithmetic and drawing use for their one-bit report. -/
def Register.flag : Register := 15

/-- The location a word points at: its low twelve bits. -/
def Address.ofWord (word : Word) : Address :=
  ⟨word.toNat % 4096, Nat.mod_lt _ (by decide)⟩

def Address.toWord (address : Address) : Word :=
  UInt16.ofNat address.val

/-- Two bytes as one word, most significant byte first. -/
def Word.ofBytes (high low : Byte) : Word :=
  UInt16.ofNat (256 * high.toNat + low.toNat)

def Word.ofByte (byte : Byte) : Word :=
  UInt16.ofNat byte.toNat

theorem Address.ofWord_val (word : Word) : (Address.ofWord word).val = word.toNat % 4096 := rfl

theorem Address.val_ofWord_add (start : Word) (offset : Nat) :
    (Address.ofWord (start + UInt16.ofNat offset)).val = (start.toNat + offset) % 4096 := by
  rw [Address.ofWord_val, UInt16.toNat_add, UInt16.toNat_ofNat']
  omega

theorem Address.toNat_toWord (address : Address) : (Address.toWord address).toNat = address.val := by
  have bound := address.isLt
  simp only [Address.toWord, UInt16.toNat_ofNat']
  omega

@[simp] theorem Address.ofWord_toWord (address : Address) :
    Address.ofWord (Address.toWord address) = address := by
  apply Fin.ext
  rw [Address.ofWord_val, Address.toNat_toWord, Nat.mod_eq_of_lt address.isLt]

theorem Word.add_one_add_ofNat (start : Word) (offset : Nat) :
    start + 1 + UInt16.ofNat offset = start + UInt16.ofNat (offset + 1) := by
  rw [Nat.add_comm, UInt16.ofNat_add, UInt16.add_assoc]
  rfl

theorem Word.add_two_add_ofNat (start : Word) (offset : Nat) :
    start + 2 + UInt16.ofNat offset = start + UInt16.ofNat (offset + 2) := by
  rw [Nat.add_comm, UInt16.ofNat_add, UInt16.add_assoc]
  rfl

end Chip8
