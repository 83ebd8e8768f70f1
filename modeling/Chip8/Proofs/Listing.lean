import Chip8.Proofs.Assembly
import Chip8.Proofs.Faults

namespace Chip8

/-- The word that two bytes of a program form, counted in words from its start. -/
def Word.ofProgram (program : List Byte) (line : Nat) : Word :=
  Word.ofBytes (program[2 * line]?.getD 0) (program[2 * line + 1]?.getD 0)

namespace Palette

/-- Each line of a listing shows its own two bytes, at their own address. -/
theorem getElem?_listing (palette : Palette) (base : Word) {program : List Byte} {line : Nat}
    (inside : line < program.length / 2) :
    (palette.listing base program)[line]? =
      some (palette.listingLine (base + UInt16.ofNat (2 * line)) (Word.ofProgram program line)) := by
  fun_induction palette.listing base program generalizing line with
  | case1 base high low rest ih =>
    cases line with
    | zero => simp [Word.ofProgram]
    | succ line =>
      have shorter : line < rest.length / 2 := by
        simp only [List.length_cons] at inside
        omega
      rw [List.getElem?_cons_succ, ih shorter, Word.add_two_add_ofNat]
      rfl
  | case2 program base short =>
    rcases program with _ | ⟨high, _ | ⟨low, rest⟩⟩
    · simp at inside
    · simp at inside
    · exact absurd rfl (short high low rest)

/-- A word is shown as one that spells nothing exactly when it spells nothing. -/
theorem word_eq_unknown_iff {palette : Palette}
    (apart : ∀ (instruction : Instruction) (word : Word),
      palette.known.paint instruction.text ≠ palette.unknown.paint (unknownLine word).text)
    (content : Word) :
    (∃ word, palette.word content = palette.unknown.paint (unknownLine word).text) ↔
      Instruction.decode content = none := by
  rw [word_eq]
  cases decoded : Instruction.decode content with
  | none => simpa using ⟨content, rfl⟩
  | some instruction => simpa using apart instruction

end Palette

namespace Memory

/-- Where memory holds a word of a program, an address that points there reads that word. -/
theorem readWord_eq_ofProgram {memory : Memory} {program : List Byte} {line : Nat} {address : Word}
    (fits : program.length ≤ programCapacity) (inside : line < program.length / 2)
    (high : memory.toList[0x200 + 2 * line]? = program[2 * line]?)
    (low : memory.toList[0x201 + 2 * line]? = program[2 * line + 1]?)
    (points : address.toNat % 4096 = 0x200 + 2 * line) :
    memory.readWord address = Word.ofProgram program line := by
  have bound : program.length ≤ 3584 := fits
  have next : (address + 1).toNat % 4096 = 0x201 + 2 * line := by
    rw [UInt16.toNat_add, UInt16.toNat_one]
    omega
  rw [getElem?_toList_of_read points] at high
  rw [getElem?_toList_of_read next] at low
  rw [readWord, Word.ofProgram, ← high, ← low, Option.getD_some, Option.getD_some]

end Memory

namespace Session

/-- Where memory still holds the program, a step fetches the word of the listing and prints its text, and it
faults when the text says so. -/
theorem step_agrees_with_listing (session : Session) (random : Byte) (program : List Byte) (line : Nat)
    (fits : program.length ≤ Memory.programCapacity) (inside : line < program.length / 2)
    (high : session.machine.memory.toList[0x200 + 2 * line]? = program[2 * line]?)
    (low : session.machine.memory.toList[0x201 + 2 * line]? = program[2 * line + 1]?)
    (here : session.machine.pc.toNat % 4096 = 0x200 + 2 * line) :
    let machine := session.machine
    let word := Word.ofProgram program line
    let text := Palette.coloured.word word
    let raised := (machine.step random).2
    (Palette.coloured.listing 0x200 program)[line]? =
        some (Numeral.hex 3 (0x200 + 2 * line) ++ ": " ++ text ++ " " ++
          Ink.dim.paint (Numeral.hex 4 word.toNat)) ∧
      machine.fetch = word ∧
      (machine.settings.tracing = true → (session.step random).printed = session.printed.push
        (Ink.dim.paint (Column.right 3 (Record.nat (machine.cycle + 1).toNat)) ++ " " ++
          Numeral.hex 3 machine.pc.toNat ++ ": " ++ Column.left 36 text)) ∧
      ((∃ pc content, .unrecognized pc content ∈ raised) ↔
        ∃ content : Word, text = Ink.boldRed.paint ("inval  " ++ Numeral.hex 4 content.toNat)) ∧
      ∀ pc content, .unrecognized pc content ∈ raised → content = word := by
  intro machine word text raised
  have fetched : machine.fetch = word := Memory.readWord_eq_ofProgram fits inside high low here
  have bound : program.length ≤ 3584 := fits
  have address : ((0x200 : Word) + UInt16.ofNat (2 * line)).toNat = 0x200 + 2 * line := by
    rw [UInt16.toNat_add, UInt16.toNat_ofNat']
    change (512 + 2 * line % 65536) % 65536 = 512 + 2 * line
    omega
  refine ⟨?_, fetched, ?_, ?_, ?_⟩
  · rw [Palette.getElem?_listing _ _ inside, Palette.listingLine, address]
  · intro tracing
    have printed : (session.step random).printed = session.printed.push machine.traceLine :=
      if_pos tracing
    rw [printed, Machine.traceLine, fetched]
  · have shown := Palette.word_eq_unknown_iff Palette.coloured_apart word
    simp only [Palette.text_unknownLine, Palette.left_inval] at shown
    refine Iff.trans ?_ shown.symm
    rw [← fetched]
    constructor
    · rintro ⟨pc, content, member⟩
      exact (Machine.unrecognized_mem_step_iff.mp member).1
    · intro unknown
      exact ⟨_, _, Machine.unrecognized_mem_step_iff.mpr ⟨unknown, rfl, rfl⟩⟩
  · intro pc content member
    exact (Machine.unrecognized_mem_step_iff.mp member).2.2.trans fetched

/-- A program whose second word is no instruction. -/
def brokenProgram : List Byte := [0x12, 0x02, 0xff, 0xff]

/-- A traced machine that has come to that word with high bits in its program counter. -/
def atBrokenWord : Session :=
  let machine : Machine := .loaded { tracing := true } brokenProgram (by decide)
  ofMachine { machine with pc := 0xf202 }

/-- The listing and the trace show the word in the same way, and the step raises a fault for it. -/
theorem step_agrees_with_listing_brokenProgram :
    let text := Ink.boldRed.paint "inval  ffff"
    (Palette.coloured.listing 0x200 brokenProgram)[1]? =
        some ("202: " ++ text ++ " " ++ Ink.dim.paint "ffff") ∧
      (atBrokenWord.step 0).printed =
        #[Ink.dim.paint "  1" ++ " " ++ "f202" ++ ": " ++ Column.left 36 text] ∧
      (∃ pc content, .unrecognized pc content ∈ (atBrokenWord.machine.step 0).2) := by
  intro text
  have shown : Palette.coloured.word (Word.ofProgram brokenProgram 1) = text := by decide +kernel
  obtain ⟨listed, _, printed, unknown, _⟩ := step_agrees_with_listing atBrokenWord 0 brokenProgram 1
    (by decide) (by decide) (by decide +kernel) (by decide +kernel) (by decide)
  rw [shown] at listed printed unknown
  exact ⟨listed, printed rfl, unknown.mpr ⟨0xffff, by decide +kernel⟩⟩

end Session

end Chip8
