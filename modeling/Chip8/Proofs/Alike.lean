import Chip8.Proofs.Effect
import Chip8.Proofs.Run
import Mathlib.Data.List.Forall2

/-! Two machines that differ in nothing an instruction can find out. How exactly their addresses have to
agree is left open. -/

namespace Chip8

/-- A relation of addresses that memory cannot see and that every offset keeps. -/
structure Word.Congruence (related : Word → Word → Prop) : Prop where
  refl (address : Word) : related address address
  add {left right : Word} (same : related left right) (offset : Word) :
    related (left + offset) (right + offset)
  location {left right : Word} (same : related left right) :
    Address.ofWord left = Address.ofWord right

/-- The same fault, raised by instructions at related addresses. -/
inductive Fault.Alike (related : Word → Word → Prop) : Fault → Fault → Prop where
  | unrecognized {left right : Word} (same : related left right) (word : Word) :
    Alike related (.unrecognized left word) (.unrecognized right word)
  | stackOverflow {left right : Word} (same : related left right) :
    Alike related (.stackOverflow left) (.stackOverflow right)
  | stackUnderflow {left right : Word} (same : related left right) :
    Alike related (.stackUnderflow left) (.stackUnderflow right)
  | protectedWrite {left right : Word} (same : related left right) (target : Word) :
    Alike related (.protectedWrite left target) (.protectedWrite right target)

/-- All that a program can see of two machines agrees, up to related addresses. -/
structure Machine.Alike (related : Word → Word → Prop) (left right : Machine) : Prop where
  dialect : left.dialect = right.dialect
  memory : left.memory = right.memory
  pixels : left.screen.pixels = right.screen.pixels
  stack : List.Forall₂ related left.stack.live right.stack.live
  pc : related left.pc right.pc
  index : related left.index right.index
  registers : left.registers = right.registers
  timers : left.timers = right.timers
  keypad : left.keypad = right.keypad

/-- Machines alike, with faults alike raised on the way. -/
structure Machine.OutcomeAlike (related : Word → Word → Prop) (left right : Machine × List Fault) :
    Prop where
  machine : Machine.Alike related left.1 right.1
  faults : List.Forall₂ (Fault.Alike related) left.2 right.2

variable {related : Word → Word → Prop}

namespace Memory

variable {left right : Word}

theorem read_congr (congruence : Word.Congruence related) (same : related left right)
    (memory : Memory) : memory.read left = memory.read right :=
  congrArg memory.get (congruence.location same)

theorem readWord_congr (congruence : Word.Congruence related) (same : related left right)
    (memory : Memory) : memory.readWord left = memory.readWord right := by
  rw [readWord, read_congr congruence same, read_congr congruence (congruence.add same 1)]
  rfl

theorem readBytes_congr (congruence : Word.Congruence related) (same : related left right)
    (memory : Memory) (count : Nat) : memory.readBytes left count = memory.readBytes right count :=
  List.map_congr_left fun _ _ => read_congr congruence (congruence.add same _) memory

theorem writeBytes_congr (congruence : Word.Congruence related) (same : related left right)
    (memory : Memory) (bytes : List Byte) :
    memory.writeBytes left bytes = memory.writeBytes right bytes := by
  induction bytes generalizing memory left right with
  | nil => rfl
  | cons byte rest ih =>
    have first : memory.write left byte = memory.write right byte := by
      simp only [write, congruence.location same]
    simp only [writeBytes, first, ih (congruence.add same 1)]

end Memory

namespace CallStack

variable {left right : CallStack}

theorem depth_eq_of_live (same : List.Forall₂ related left.live right.live) :
    left.depth = right.depth := by
  rw [← length_live, ← length_live]
  exact same.length_eq

private theorem rel_of_none_iff {First Second : Type} {holds : First → Second → Prop}
    {first : Option First} {second : Option Second} (missing : first = none ↔ second = none)
    (present : ∀ left right, first = some left → second = some right → holds left right) :
    Option.Rel holds first second := by
  cases first with
  | none =>
    rw [missing.mp rfl]
    exact .none
  | some left =>
    cases second with
    | none => exact absurd (missing.mpr rfl) (Option.some_ne_none left)
    | some right => exact .some (present left right rfl rfl)

theorem push?_alike {leftAddress rightAddress : Word}
    (same : List.Forall₂ related left.live right.live) (address : related leftAddress rightAddress) :
    Option.Rel (fun left right => List.Forall₂ related left.live right.live)
      (left.push? leftAddress) (right.push? rightAddress) := by
  apply rel_of_none_iff
  · rw [push?_eq_none_iff, push?_eq_none_iff, depth_eq_of_live same]
  · intro leftGrown rightGrown leftPushed rightPushed
    rw [live_of_push? leftPushed, live_of_push? rightPushed]
    exact List.rel_append same (.cons address .nil)

theorem pop?_alike (same : List.Forall₂ related left.live right.live) :
    Option.Rel (fun left right => related left.1 right.1 ∧
      List.Forall₂ related left.2.live right.2.live) left.pop? right.pop? := by
  apply rel_of_none_iff
  · rw [pop?_eq_none_iff, pop?_eq_none_iff, depth_eq_of_live same]
  · intro leftEntry rightEntry leftPopped rightPopped
    -- The newest addresses come first once the lists are reversed.
    rw [live_of_pop? leftPopped, live_of_pop? rightPopped, ← List.forall₂_reverse_iff,
      List.reverse_append, List.reverse_append] at same
    obtain ⟨address, rest⟩ := List.forall₂_cons.mp same
    exact ⟨address, List.forall₂_reverse_iff.mp rest⟩

end CallStack

namespace Screen

variable {left right : Screen}

theorem lit_congr (same : left.pixels = right.pixels) (position : Position) :
    left.lit position = right.lit position := by
  rw [lit, lit, same]

theorem toggle_congr (same : left.pixels = right.pixels) (position : Position) :
    (left.toggle position).pixels = (right.toggle position).pixels := by
  simp only [toggle, same, lit_congr same]

private theorem foldl_plot_congr (same : left.pixels = right.pixels) (positions : List Position)
    (collision : Bool) :
    (positions.foldl plot (left, collision)).1.pixels =
        (positions.foldl plot (right, collision)).1.pixels ∧
      (positions.foldl plot (left, collision)).2 = (positions.foldl plot (right, collision)).2 := by
  induction positions generalizing left right collision with
  | nil => exact ⟨same, rfl⟩
  | cons position rest ih =>
    simp only [List.foldl_cons, plot, lit_congr same]
    exact ih (toggle_congr same position) _

/-- The latch has no part in drawing. -/
theorem draw_congr (same : left.pixels = right.pixels) (x y : Byte) (sprite : Sprite) (clip : Bool) :
    (left.draw x y sprite clip).1.pixels = (right.draw x y sprite clip).1.pixels ∧
      (left.draw x y sprite clip).2 = (right.draw x y sprite clip).2 :=
  foldl_plot_congr same _ false

end Screen

namespace Machine.Alike

variable {left right : Machine}

theorem advance (congruence : Word.Congruence related) (alike : Alike related left right) :
    Alike related left.advance right.advance :=
  { alike with pc := congruence.add alike.pc 2 }

theorem skipIf (congruence : Word.Congruence related) (alike : Alike related left right)
    {leftHolds rightHolds : Bool} (same : leftHolds = rightHolds) :
    Alike related (left.skipIf leftHolds) (right.skipIf rightHolds) where
  __ := alike
  pc := by
    simp only [Machine.skipIf, same]
    exact congruence.add alike.pc _

theorem get_eq (alike : Alike related left right) (x : Register) :
    left.registers.get x = right.registers.get x := by
  rw [alike.registers]

theorem setRegister (alike : Alike related left right) (x : Register) {leftValue rightValue : Byte}
    (same : leftValue = rightValue) :
    Alike related (left.setRegister x leftValue) (right.setRegister x rightValue) :=
  { alike with registers := congrArg₂ (Registers.set · x ·) alike.registers same }

theorem passIndex (congruence : Word.Congruence related) (alike : Alike related left right)
    (last : Register) : Alike related (left.passIndex last) (right.passIndex last) where
  __ := alike
  index := by
    simp only [Machine.passIndex, alike.dialect]
    exact congruence.add alike.index _

theorem holds_eq (alike : Alike related left right) (condition : Condition) (fits : condition.Fits) :
    left.holds condition fits = right.holds condition fits := by
  cases condition <;> simp only [holds, namedKey, alike.registers, alike.keypad]

/-- An instruction that raises nothing. -/
theorem quiet (alike : Alike related left right) : OutcomeAlike related (left, []) (right, []) :=
  ⟨alike, .nil⟩

theorem ret (congruence : Word.Congruence related) (alike : Alike related left right) :
    OutcomeAlike related left.ret right.ret := by
  have popped := CallStack.pop?_alike alike.stack
  unfold Machine.ret
  generalize left.stack.pop? = leftPopped at popped ⊢
  generalize right.stack.pop? = rightPopped at popped ⊢
  cases popped with
  | none => exact ⟨alike.advance congruence, .cons (.stackUnderflow alike.pc) .nil⟩
  | some same =>
    obtain ⟨pc, stack⟩ := same
    exact quiet (advance congruence { alike with pc, stack })

theorem call (congruence : Word.Congruence related) (alike : Alike related left right)
    (target : Word) : OutcomeAlike related (left.call target) (right.call target) := by
  have pushed := CallStack.push?_alike alike.stack alike.pc
  unfold Machine.call
  generalize left.stack.push? left.pc = leftPushed at pushed ⊢
  generalize right.stack.push? right.pc = rightPushed at pushed ⊢
  cases pushed with
  | none => exact ⟨alike.advance congruence, .cons (.stackOverflow alike.pc) .nil⟩
  | some stack => exact quiet { alike with pc := congruence.refl target, stack }

theorem jumpIndexed (congruence : Word.Congruence related) (alike : Alike related left right)
    (target : Word) : Alike related (left.jumpIndexed target) (right.jumpIndexed target) where
  __ := alike
  pc := by
    simp only [Machine.jumpIndexed, alike.registers, alike.dialect]
    exact congruence.refl _

theorem draw (congruence : Word.Congruence related) (alike : Alike related left right)
    (x y : Register) (rows : Nat) : Alike related (left.draw x y rows) (right.draw x y rows) := by
  have sprite : left.memory.readBytes left.index rows = right.memory.readBytes right.index rows := by
    rw [alike.memory, Memory.readBytes_congr congruence alike.index]
  have origin (register : Register) :
      (left.registers.setFlag false).get register = (right.registers.setFlag false).get register := by
    rw [alike.registers]
  obtain ⟨pixels, collision⟩ := Screen.draw_congr alike.pixels
    ((right.registers.setFlag false).get x) ((right.registers.setFlag false).get y)
    (right.memory.readBytes right.index rows) right.dialect.clipsSprites
  simp only [Machine.draw, sprite, origin, alike.dialect, collision]
  exact advance congruence { alike with pixels, registers := by rw [alike.registers] }

theorem waitForKey (congruence : Word.Congruence related) (alike : Alike related left right)
    (x : Register) : Alike related (left.waitForKey x) (right.waitForKey x) := by
  have held : left.keypad.lowestHeld = right.keypad.lowestHeld := by rw [alike.keypad]
  unfold Machine.waitForKey
  rw [held]
  cases right.keypad.lowestHeld with
  | none => exact { alike with }
  | some key => exact advance congruence { alike.setRegister x rfl with }

theorem store (congruence : Word.Congruence related) (alike : Alike related left right)
    (bytes : List Byte) : OutcomeAlike related (left.store bytes) (right.store bytes) := by
  have written : left.memory.writeBytes left.index bytes =
      right.memory.writeBytes right.index bytes := by
    rw [alike.memory, Memory.writeBytes_congr congruence alike.index]
  simp only [Machine.store, written]
  refine ⟨{ alike with memory := rfl }, ?_⟩
  rw [List.forall₂_map_left_iff, List.forall₂_map_right_iff]
  exact List.forall₂_same.mpr fun location _ => .protectedWrite alike.pc location.toWord

theorem storeDecimal (congruence : Word.Congruence related) (alike : Alike related left right)
    (x : Register) : OutcomeAlike related (left.storeDecimal x) (right.storeDecimal x) := by
  have stored := alike.store congruence (decimalDigits (right.registers.get x))
  simp only [Machine.storeDecimal, alike.get_eq]
  exact ⟨stored.machine.advance congruence, stored.faults⟩

theorem storeRegisters (congruence : Word.Congruence related) (alike : Alike related left right)
    (last : Register) :
    OutcomeAlike related (left.storeRegisters last) (right.storeRegisters last) := by
  have stored := alike.store congruence ((Registers.upTo last).map right.registers.get)
  have bytes : left.registers.get = right.registers.get := funext alike.get_eq
  simp only [Machine.storeRegisters, bytes]
  exact ⟨(stored.machine.passIndex congruence last).advance congruence, stored.faults⟩

theorem loadRegisters (congruence : Word.Congruence related) (alike : Alike related left right)
    (last : Register) : Alike related (left.loadRegisters last) (right.loadRegisters last) := by
  have read (register : Register) :
      left.memory.read (left.index + UInt16.ofNat register.val) =
        right.memory.read (right.index + UInt16.ofNat register.val) := by
    rw [alike.memory, Memory.read_congr congruence (congruence.add alike.index _)]
  refine advance congruence (passIndex congruence ?_ last)
  exact { alike with registers := by simp only [read, alike.registers] }

/-- An instruction does alike to machines alike. -/
theorem execute (congruence : Word.Congruence related) (alike : Alike related left right)
    (random : Byte) {instruction : Instruction} (fits : instruction.Fits) :
    OutcomeAlike related (left.execute random instruction fits)
      (right.execute random instruction fits) := by
  cases instruction with
  | clearScreen => exact quiet (advance congruence { alike with pixels := rfl })
  | ret => exact alike.ret congruence
  | jump target => exact quiet { alike with pc := congruence.refl target }
  | call target => exact alike.call congruence target
  | skip condition => exact quiet (alike.skipIf congruence (alike.holds_eq condition fits))
  | setByte x byte => exact quiet (advance congruence (alike.setRegister _ rfl))
  | addByte x byte =>
    exact quiet (advance congruence (alike.setRegister _ (congrArg (· + byte) (alike.get_eq _))))
  | arithmetic operation x y =>
    refine quiet (advance congruence { alike with registers := ?_ })
    rw [alike.registers, alike.dialect]
  | setIndex target => exact quiet (advance congruence { alike with index := congruence.refl target })
  | jumpIndexed target => exact quiet (alike.jumpIndexed congruence target)
  | random x mask => exact quiet (advance congruence (alike.setRegister _ rfl))
  | draw x y rows => exact quiet (alike.draw congruence _ _ rows)
  | getDelay x =>
    exact quiet (advance congruence (alike.setRegister _ (congrArg Timers.delay alike.timers)))
  | waitForKey x => exact quiet (alike.waitForKey congruence _)
  | setDelay x =>
    refine quiet (advance congruence { alike with timers := ?_ })
    exact congrArg₂ Timers.mk (alike.get_eq _) (congrArg Timers.sound alike.timers)
  | setSound x =>
    refine quiet (advance congruence { alike with timers := ?_ })
    exact congrArg₂ Timers.mk (congrArg Timers.delay alike.timers) (alike.get_eq _)
  | addIndex x =>
    simp only [Machine.execute, alike.get_eq]
    exact quiet (advance congruence { alike with index := congruence.add alike.index _ })
  | setGlyph x =>
    simp only [Machine.execute, alike.get_eq]
    exact quiet (advance congruence { alike with index := congruence.refl _ })
  | storeDecimal x => exact alike.storeDecimal congruence _
  | storeRegisters x => exact alike.storeRegisters congruence _
  | loadRegisters x => exact quiet (alike.loadRegisters congruence _)

theorem fetch_eq (congruence : Word.Congruence related) (alike : Alike related left right) :
    left.fetch = right.fetch := by
  rw [fetch, fetch, alike.memory, Memory.readWord_congr congruence alike.pc]

theorem next?_eq (congruence : Word.Congruence related) (alike : Alike related left right) :
    left.next? = right.next? := by
  rw [next?, next?, alike.fetch_eq congruence]

/-- Machines alike take steps alike, and raise faults alike. -/
theorem step (congruence : Word.Congruence related) (alike : Alike related left right)
    (random : Byte) : OutcomeAlike related (left.step random) (right.step random) := by
  have counted : Alike related left.counted right.counted := { alike with }
  cases decoded : left.next? with
  | none =>
    have unknown : right.next? = none := (alike.next?_eq congruence).symm.trans decoded
    rw [step_of_unrecognized random decoded, step_of_unrecognized random unknown,
      alike.fetch_eq congruence]
    refine ⟨{ counted.advance congruence with timers := ?_ }, .cons (.unrecognized alike.pc _) .nil⟩
    exact congrArg Timers.tick alike.timers
  | some instruction =>
    have known : right.next? = some instruction := (alike.next?_eq congruence).symm.trans decoded
    have executed := counted.execute congruence random (Instruction.fits_of_decode decoded)
    rw [step_of_next random decoded, step_of_next random known]
    refine ⟨{ executed.machine with timers := ?_ }, executed.faults⟩
    exact congrArg Timers.tick executed.machine.timers

end Machine.Alike

namespace Session

variable {left right : Session}

/-- A host that does the same to machines alike leaves them alike. -/
theorem alike_perform_of_host (congruence : Word.Congruence related)
    (alike : Machine.Alike related left.machine right.machine) {request : Request}
    (host : request.isHost = true) :
    Machine.Alike related (left.perform request).1.machine (right.perform request).1.machine := by
  cases request with
  | step | run => contradiction
  | load program =>
    simp only [perform, load, Machine.load, alike.memory]
    cases right.machine.memory.load program with
    | error error => exact alike
    | ok memory => exact { alike with memory := rfl }
  | setKey key pressed =>
    exact { alike with keypad := congrArg (fun keypad => (keypad.set key pressed).1) alike.keypad }
  | setSettings settings => exact { alike with dialect := rfl }
  | takeRedraw | takeFaults => exact { alike with }
  | reset =>
    exact {
      dialect := alike.dialect, memory := alike.memory, pixels := rfl, stack := .nil
      pc := congruence.refl _, index := congruence.refl _, registers := rfl, timers := rfl, keypad := rfl }

/-- Whatever a host does to machines alike, and however long it lets them run, they stay alike. -/
theorem alike_performAll (congruence : Word.Congruence related)
    (alike : Machine.Alike related left.machine right.machine) (requests : List Request) :
    Machine.Alike related (left.performAll requests).machine (right.performAll requests).machine := by
  apply performAll_related (fun left right => Machine.Alike related left.machine right.machine)
  case start => exact alike
  case stepped => exact fun left right random alike => (alike.step congruence random).machine
  case hosted => exact fun left right request host alike => alike_perform_of_host congruence alike host

end Session

end Chip8
