import Chip8.Proofs.Bare.Checked
import Chip8.Session

/-! The machine in plain arrays and unbounded numbers. Nothing in its type says that an index is in range,
so every access is checked when it happens. -/

namespace Chip8

structure Bare where
  settings : Settings
  memory : Array Byte
  /-- One byte for each pixel, row after row. -/
  pixels : Array Byte
  redraw : Bool
  stack : Array Word
  depth : Nat
  pc : Word
  index : Word
  registers : Array Byte
  timers : Timers
  keys : Array Bool
  cycle : Nat
  faults : List Fault

namespace Bare

/-- The sizes that the containers should have, and the values that they should hold. -/
structure WellFormed (bare : Bare) : Prop where
  memory_size : bare.memory.size = 4096
  pixels_size : bare.pixels.size = 2048
  pixel_bit : ∀ pixel ∈ bare.pixels, pixel = 0 ∨ pixel = 1
  stack_size : bare.stack.size = 16
  depth_le : bare.depth ≤ 16
  registers_size : bare.registers.size = 16
  keys_size : bare.keys.size = 16
  faults_le : bare.faults.length ≤ 64
  cycle_lt : bare.cycle < UInt64.size

/-- A bare machine that has not run yet. The font is copied over empty memory. -/
def new (settings : Settings) : Checked Bare := do
  let memory ← Checked.overwrite (Array.replicate 4096 0) 0 Font.rows.toList.length Font.rows.toList
  return {
    settings, memory
    pixels := Array.replicate 2048 0
    redraw := false
    stack := Array.replicate 16 0
    depth := 0
    pc := 0x200
    index := 0
    registers := Array.replicate 16 0
    timers := {}
    keys := Array.replicate 16 false
    cycle := 0
    faults := [] }

/-- The return addresses in use, oldest first. -/
def live (bare : Bare) : Checked (List Word) :=
  Checked.slice bare.stack bare.depth

/-- Adds a fault to the queue; a full queue loses its oldest one first. -/
def fault (bare : Bare) (raised : Fault) : Bare :=
  let kept := if bare.faults.length = 64 then bare.faults.tail else bare.faults
  { bare with faults := kept ++ [raised] }

/-- Copies a program behind the interpreter area, if it fits. -/
def load (bare : Bare) (program : List Byte) : Checked (Bare × Reply) :=
  if 0xe00 < program.length then
    .ok (bare, .refused (.oversizeProgram program.length 0xe00))
  else do
    let stop ← Checked.add UInt64.size 0x200 program.length
    let memory ← Checked.overwrite bare.memory 0x200 stop program
    return ({ bare with memory }, .done)

def setKey (bare : Bare) (key : Nat) (pressed : Bool) : Checked (Bare × Reply) :=
  match bare.keys[key]? with
  | none => .ok (bare, .flag false)
  | some held =>
    if held = pressed then .ok (bare, .flag false)
    else do return ({ bare with keys := ← Checked.set bare.keys key pressed }, .flag true)

/-- A new machine that takes over the memory and the settings. -/
def reset (bare : Bare) : Checked Bare := do
  let fresh ← new { bare.settings with waiting := false }
  return { fresh with memory := bare.memory }

end Bare

/-- The same machine without the bounds that its types carry. -/
def Machine.bare (machine : Machine) : Bare where
  settings := machine.settings
  memory := machine.memory.bytes.toArray
  pixels := (machine.screen.pixels.map Bool.toUInt8).toArray
  redraw := machine.screen.redraw
  stack := machine.stack.slots.toArray
  depth := machine.stack.depth
  pc := machine.pc
  index := machine.index
  registers := machine.registers.values.toArray
  timers := machine.timers
  keys := machine.keypad.held.toArray
  cycle := machine.cycle.toNat
  faults := machine.faults.faults

namespace Machine

theorem wellFormed_bare (machine : Machine) : machine.bare.WellFormed where
  memory_size := machine.memory.bytes.size_toArray
  pixels_size := Vector.size_toArray _
  pixel_bit := by
    intro pixel member
    simp only [bare, Vector.mem_toArray_iff, Vector.mem_map] at member
    obtain ⟨lit, _, rfl⟩ := member
    cases lit
    · exact .inl rfl
    · exact .inr rfl
  stack_size := machine.stack.slots.size_toArray
  depth_le := machine.stack.depth_le
  registers_size := machine.registers.values.size_toArray
  keys_size := machine.keypad.held.size_toArray
  faults_le := machine.faults.length_le
  cycle_lt := machine.cycle.toNat_lt

theorem live_bare (machine : Machine) : machine.bare.live = .ok machine.stack.live :=
  Checked.slice_toArray machine.stack.slots machine.stack.depth_le

theorem faults_push (queue : FaultQueue) (raised : Fault) :
    (queue.push raised).faults =
      (if queue.faults.length = 64 then queue.faults.tail else queue.faults) ++ [raised] := by
  have bound := queue.length_le
  simp only [FaultQueue.push, FaultQueue.ofHistory, FaultQueue.capacity, List.length_append,
    List.length_singleton]
  split
  · rename_i full
    have nonempty : queue.faults ≠ [] := by
      intro empty
      simp [empty] at full
    have one : queue.faults.length + 1 - 64 = 1 := by omega
    rw [one, List.drop_one, List.tail_append_of_ne_nil nonempty]
  · rename_i room
    have none : queue.faults.length + 1 - 64 = 0 := by omega
    rw [none, List.drop_zero]

theorem fault_bare (machine : Machine) (raised : Fault) :
    machine.bare.fault raised = { machine with faults := machine.faults.push raised }.bare := by
  simp only [Bare.fault, bare, faults_push]
  rfl

/-- The empty memory with the font copied over it is the memory of a new machine. -/
private theorem overwrite_font :
    Checked.overwrite (Array.replicate 4096 0) 0 Font.rows.toList.length Font.rows.toList =
      .ok Memory.initial.bytes.toArray := by
  have copied := Checked.overwrite_toArray (Vector.replicate 4096 0) 0 Font.rows.toList (by simp)
  rw [Nat.zero_add] at copied
  refine copied.trans (congrArg (fun bytes => Except.ok (Vector.toArray bytes)) ?_)
  simp
  rfl

theorem new_bare (settings : Settings) : Bare.new settings = .ok (new settings).bare := by
  rw [Bare.new, overwrite_font]
  have dark : ((new settings).screen.pixels.map Bool.toUInt8).toArray = Array.replicate 2048 0 := by
    simp only [new, Screen.blank, Vector.map_replicate]
    rfl
  simp only [Checked.ok_bind, Checked.pure_eq_ok, bare, dark]
  rfl

theorem reset_bare (machine : Machine) : machine.bare.reset = .ok machine.reset.bare := by
  rw [Bare.reset, new_bare]
  rfl

theorem setKey_bare (machine : Machine) (key : Nat) (pressed : Bool) :
    machine.bare.setKey key pressed =
      .ok ((machine.setKey key pressed).1.bare, .flag (machine.setKey key pressed).2) := by
  simp only [Bare.setKey, setKey, Keypad.set]
  by_cases inRange : key < 16
  · have present : machine.bare.keys[key]? = some machine.keypad.held[key] := by
      simp [bare, inRange]
    rw [present, dif_pos inRange]
    by_cases same : machine.keypad.held[key] = pressed
    · simp [same]
    · simp [same, bare, inRange]
  · have absent : machine.bare.keys[key]? = none := by
      simp [bare, inRange]
    rw [absent, dif_neg inRange]

theorem load_bare (machine : Machine) (program : List Byte) :
    machine.bare.load program =
      match machine.load program with
      | .ok loaded => .ok (loaded.bare, .done)
      | .error error => .ok (machine.bare, .refused error) := by
  simp only [Bare.load, load, Memory.load]
  by_cases long : 0xe00 < program.length
  · have refused : program.length > Memory.programCapacity := long
    rw [if_pos long, if_pos refused]
    rfl
  · have fits : ¬ program.length > Memory.programCapacity := long
    have short : 0x200 + program.length < UInt64.size := by
      simp only [UInt64.size]
      omega
    have inside : 0x200 + program.length ≤ 4096 := by omega
    rw [if_neg long, if_neg fits, Checked.add_of_lt short]
    simp only [Checked.ok_bind]
    have copied : Checked.overwrite machine.bare.memory 0x200 (0x200 + program.length) program = _ :=
      Checked.overwrite_toArray machine.memory.bytes 0x200 program inside
    rw [copied]
    simp only [Checked.ok_bind, Except.map, bare, List.getElem?_toArray]
    rfl

end Machine

end Chip8
