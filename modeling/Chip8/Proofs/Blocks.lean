import Chip8.Memory

/-! Blocks of bytes that follow each other in memory and go on at its bottom. A block no longer than memory
does not meet itself, however its addresses wrap. -/

namespace Chip8

namespace Memory

theorem getElem?_readBytes (memory : Memory) (start : Word) {count offset : Nat}
    (inside : offset < count) :
    (memory.readBytes start count)[offset]? = memory.toList[(start.toNat + offset) % 4096]? := by
  have place : (start + UInt16.ofNat offset).toNat % 4096 = (start.toNat + offset) % 4096 :=
    Address.val_ofWord_add start offset
  rw [getElem?_toList_of_read place]
  simp [readBytes, inside]

/-- The locations that refuse a byte of a block, in the order of the bytes. -/
def refusals (start : Word) (count : Nat) : List Address :=
  ((List.range count).map fun offset => Address.ofWord (start + UInt16.ofNat offset)).filter
    fun location => decide (location.val < programStart)

theorem refusals_succ (start : Word) (count : Nat) :
    refusals start (count + 1) =
      (if (Address.ofWord start).val < programStart then [Address.ofWord start] else []) ++
        refusals (start + 1) count := by
  have first : start + UInt16.ofNat 0 = start := UInt16.add_zero start
  simp only [refusals, List.range_succ_eq_map, List.map_cons, List.map_map, List.filter_cons,
    decide_eq_true_eq, Function.comp_def, Nat.succ_eq_add_one, ← Word.add_one_add_ofNat, first]
  split <;> rfl

theorem refused_writeBytes (memory : Memory) (start : Word) (bytes : List Byte) :
    (memory.writeBytes start bytes).2 = refusals start bytes.length := by
  induction bytes generalizing memory start with
  | nil => rfl
  | cons byte rest ih =>
    rw [List.length_cons, refusals_succ]
    simp only [writeBytes]
    cases written : memory.write start byte with
    | error location =>
      obtain ⟨rfl, low⟩ := write_eq_error_iff.mp written
      rw [if_pos low, ← ih memory]
      rfl
    | ok next =>
      rw [if_neg (Nat.not_lt_of_le (le_of_write written))]
      exact ih next (start + 1)

/-- A block changes nothing outside itself. -/
theorem get_writeBytes_of_ne (memory : Memory) {start : Word} {bytes : List Byte} {location : Address}
    (outside : ∀ offset < bytes.length, location ≠ Address.ofWord (start + UInt16.ofNat offset)) :
    (memory.writeBytes start bytes).1.get location = memory.get location := by
  induction bytes generalizing memory start with
  | nil => rfl
  | cons byte rest ih =>
    have notFirst : location ≠ Address.ofWord start := by
      simpa using outside 0 (Nat.zero_lt_succ _)
    have later (next : Memory) : (next.writeBytes (start + 1) rest).1.get location = next.get location := by
      refine ih next fun offset inside => ?_
      rw [Word.add_one_add_ofNat]
      exact outside (offset + 1) (Nat.succ_lt_succ inside)
    simp only [writeBytes]
    cases written : memory.write start byte with
    | error refused => exact later memory
    | ok next =>
      refine (later next).trans ?_
      rw [get_write location written, if_neg notFirst]

/-- Below the program area nothing changes, whether the block reaches there or not. -/
theorem get_writeBytes_of_low (memory : Memory) (start : Word) (bytes : List Byte) {location : Address}
    (low : location.val < programStart) :
    (memory.writeBytes start bytes).1.get location = memory.get location := by
  induction bytes generalizing memory start with
  | nil => rfl
  | cons byte rest ih =>
    simp only [writeBytes]
    cases written : memory.write start byte with
    | error refused => exact ih memory (start + 1)
    | ok next => exact (ih next (start + 1)).trans (get_write_of_low written low)

/-- A byte that is not refused can be read where it was stored. -/
theorem get_writeBytes (memory : Memory) {start : Word} {bytes : List Byte} (short : bytes.length ≤ 4096)
    {offset : Nat} (inside : offset < bytes.length)
    (high : programStart ≤ (Address.ofWord (start + UInt16.ofNat offset)).val) :
    (memory.writeBytes start bytes).1.get (Address.ofWord (start + UInt16.ofNat offset)) =
      bytes[offset] := by
  induction bytes generalizing memory start offset with
  | nil => simp at inside
  | cons byte rest ih =>
    rw [List.length_cons] at short
    simp only [writeBytes]
    cases offset with
    | zero =>
      have first : start + UInt16.ofNat 0 = start := UInt16.add_zero start
      rw [first] at high ⊢
      cases written : memory.write start byte with
      | error location =>
        obtain ⟨rfl, low⟩ := write_eq_error_iff.mp written
        omega
      | ok next =>
        -- The rest of the block is too short to come back to its first byte.
        refine (get_writeBytes_of_ne next fun offset later same => ?_).trans ?_
        · have place := congrArg Fin.val same
          rw [Word.add_one_add_ofNat, Address.val_ofWord_add, Address.ofWord_val] at place
          omega
        · rw [get_write _ written, if_pos rfl]
          rfl
    | succ offset =>
      rw [← Word.add_one_add_ofNat] at high ⊢
      have following (next : Memory) :=
        ih next (Nat.le_of_succ_le short) (Nat.lt_of_succ_lt_succ inside) high
      cases written : memory.write start byte with
      | error location => exact following memory
      | ok next => exact following next

/-- The same, with the place of the byte counted from the bottom of memory. -/
theorem getElem?_writeBytes (memory : Memory) {start : Word} {bytes : List Byte}
    (short : bytes.length ≤ 4096) {offset : Nat} (inside : offset < bytes.length)
    (high : programStart ≤ (start.toNat + offset) % 4096) :
    (memory.writeBytes start bytes).1.toList[(start.toNat + offset) % 4096]? = bytes[offset]? := by
  rw [← Address.val_ofWord_add] at high
  have place : (start + UInt16.ofNat offset).toNat % 4096 = (start.toNat + offset) % 4096 :=
    Address.val_ofWord_add start offset
  rw [getElem?_toList_of_read place, List.getElem?_eq_getElem inside, ← memory.get_writeBytes short inside high]
  rfl

/-- What a block of bytes makes of a memory: each byte stands in its own place if memory takes it there, and
all other places are as they were before. -/
structure HoldsBlock (before : Memory) (start : Word) (bytes : List Byte) (after : Memory) : Prop where
  placed {offset : Nat} (inside : offset < bytes.length)
    (high : programStart ≤ (start.toNat + offset) % 4096) :
    after.toList[(start.toNat + offset) % 4096]? = bytes[offset]?
  kept {location : Address} (apart : location.val < programStart ∨
      ∀ offset < bytes.length, location.val ≠ (start.toNat + offset) % 4096) :
    after.get location = before.get location

theorem holdsBlock_writeBytes (memory : Memory) (start : Word) {bytes : List Byte}
    (short : bytes.length ≤ 4096) : memory.HoldsBlock start bytes (memory.writeBytes start bytes).1 where
  placed inside high := memory.getElem?_writeBytes short inside high
  kept apart := by
    rcases apart with low | outside
    · exact memory.get_writeBytes_of_low start bytes low
    · refine memory.get_writeBytes_of_ne fun offset inside same => outside offset inside ?_
      rw [same, Address.val_ofWord_add]

end Memory

end Chip8
