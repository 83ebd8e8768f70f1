import Chip8.Error
import Chip8.Font

/-! Four kilobytes, read through the low twelve bits of an address. The font stands at the bottom, programs
start at `0x200`, and nothing below that can be written. -/

namespace Chip8

structure Memory where
  bytes : Vector Byte 4096
deriving DecidableEq

namespace Memory

def size : Nat := 4096

/-- Where programs are loaded and where a machine starts to run. -/
def programStart : Nat := 0x200

/-- Length of the longest program that fits. -/
def programCapacity : Nat := size - programStart

/-- A named part of memory. -/
inductive Region where
  | charset
  | program

/-- First location of a region and first location after it. -/
def Region.bounds : Region → Nat × Nat
  | charset => (0, Font.rows.toList.length)
  | program => (programStart, size)

/-- Memory that holds the font and nothing else. -/
def initial : Memory :=
  ⟨Vector.ofFn fun location => Font.rows[location.val]?.getD 0⟩

def get (memory : Memory) (location : Address) : Byte :=
  memory.bytes[location.val]

def read (memory : Memory) (address : Word) : Byte :=
  memory.get (Address.ofWord address)

/-- Two consecutive bytes as a word. The second address wraps on its own. -/
def readWord (memory : Memory) (address : Word) : Word :=
  Word.ofBytes (memory.read address) (memory.read (address + 1))

/-- Consecutive bytes, first address first. -/
def readBytes (memory : Memory) (start : Word) (count : Nat) : List Byte :=
  (List.range count).map fun offset => memory.read (start + UInt16.ofNat offset)

/-- Stores a byte, or returns the location when it lies below the program area. -/
@[inline] def write (memory : Memory) (address : Word) (byte : Byte) : Except Address Memory :=
  let location := Address.ofWord address
  if location.val < programStart then .error location
  else .ok ⟨memory.bytes.set location.val byte⟩

/-- Stores consecutive bytes, and returns the locations that refused theirs, in the order of the bytes. -/
def writeBytes (memory : Memory) (start : Word) : List Byte → Memory × List Address
  | [] => (memory, [])
  | byte :: rest =>
    match memory.write start byte with
    | .ok written => written.writeBytes (start + 1) rest
    | .error location =>
      let (written, refused) := memory.writeBytes (start + 1) rest
      (written, location :: refused)

/-- Copies a program into the program area. Bytes after the end of the program stay as they are. -/
def load (memory : Memory) (program : List Byte) : Except Error Memory :=
  if program.length > programCapacity then .error (.oversizeProgram program.length programCapacity)
  else
    let image := program.toArray
    .ok ⟨Vector.ofFn fun location =>
      if location.val < programStart then memory.get location
      else image[location.val - programStart]?.getD (memory.get location)⟩

def toList (memory : Memory) : List Byte :=
  memory.bytes.toList

theorem ext_get {left right : Memory} (same : ∀ location, left.get location = right.get location) :
    left = right := by
  cases left
  cases right
  congr
  exact Vector.ext fun index bound => same ⟨index, bound⟩

/-- What an address reads is found in memory at its low twelve bits. -/
theorem getElem?_toList_of_read {memory : Memory} {address : Word} {place : Nat}
    (points : address.toNat % 4096 = place) : memory.toList[place]? = some (memory.read address) := by
  have inside : place < 4096 := points ▸ Nat.mod_lt _ (by decide)
  subst points
  simp [toList, read, get, Address.ofWord_val, inside]

@[simp] theorem length_readBytes (memory : Memory) (start : Word) (count : Nat) :
    (memory.readBytes start count).length = count := by
  simp [readBytes]

theorem get_initial (location : Address) :
    initial.get location = Font.rows[location.val]?.getD 0 := by
  simp [initial, get]

/-- A new memory is empty where programs go. -/
theorem get_initial_of_high {location : Address} (high : programStart ≤ location.val) :
    initial.get location = 0 := by
  have pastFont : Font.rows[location.val]? = none := by
    simp only [programStart] at high
    simp
    omega
  rw [get_initial, pastFont]
  rfl

theorem write_eq_error_iff {memory : Memory} {address : Word} {byte : Byte} {location : Address} :
    memory.write address byte = .error location ↔
      location = Address.ofWord address ∧ location.val < programStart := by
  simp only [write]
  split
  · rename_i protectedArea
    simp only [Except.error.injEq]
    exact ⟨fun h => ⟨h.symm, h ▸ protectedArea⟩, fun h => h.1.symm⟩
  · rename_i open_
    simp only [reduceCtorEq, false_iff, not_and]
    rintro rfl
    exact open_

theorem le_of_write {memory written : Memory} {address : Word} {byte : Byte}
    (success : memory.write address byte = .ok written) : programStart ≤ (Address.ofWord address).val := by
  refine Nat.le_of_not_lt fun low => ?_
  rw [write_eq_error_iff.mpr ⟨rfl, low⟩] at success
  contradiction

theorem get_write {memory written : Memory} {address : Word} {byte : Byte} (location : Address)
    (success : memory.write address byte = .ok written) :
    written.get location = if location = Address.ofWord address then byte else memory.get location := by
  simp only [write] at success
  split at success
  · contradiction
  · obtain rfl := Except.ok.inj success
    simp only [get, Vector.getElem_set, Fin.ext_iff, eq_comm]

/-- Below the program area no write changes anything. -/
theorem get_write_of_low {memory written : Memory} {address : Word} {byte : Byte} {location : Address}
    (success : memory.write address byte = .ok written) (low : location.val < programStart) :
    written.get location = memory.get location := by
  have elsewhere : location ≠ Address.ofWord address := fun same =>
    Nat.not_lt_of_le (le_of_write success) (same ▸ low)
  rw [get_write location success, if_neg elsewhere]

theorem load_eq_error_iff {memory : Memory} {program : List Byte} {error : Error} :
    memory.load program = .error error ↔
      programCapacity < program.length ∧ error = .oversizeProgram program.length programCapacity := by
  unfold load
  split
  · simp_all [eq_comm]
  · rename_i fits
    simp only [reduceCtorEq, false_iff, not_and]
    exact fun long => absurd long fits

theorem length_le_of_load {memory loaded : Memory} {program : List Byte}
    (success : memory.load program = .ok loaded) : program.length ≤ programCapacity := by
  refine Nat.le_of_not_lt fun long => ?_
  rw [load_eq_error_iff.mpr ⟨long, rfl⟩] at success
  contradiction

theorem get_load {memory loaded : Memory} {program : List Byte} (location : Address)
    (success : memory.load program = .ok loaded) :
    loaded.get location =
      if location.val < programStart then memory.get location
      else program[location.val - programStart]?.getD (memory.get location) := by
  unfold load at success
  split at success
  · contradiction
  · obtain rfl := Except.ok.inj success
    simp [get]

end Memory

end Chip8
