import Chip8.Word

namespace Chip8

/-- The content of all data registers. -/
structure Registers where
  values : Vector Byte 16
deriving DecidableEq

namespace Registers

/-- Every register holds zero. -/
def zero : Registers := ⟨Vector.replicate 16 0⟩

def get (registers : Registers) (register : Register) : Byte :=
  registers.values[register.val]

def set (registers : Registers) (register : Register) (value : Byte) : Registers :=
  ⟨registers.values.set register.val value⟩

/-- Puts one or zero into the flag register. -/
def setFlag (registers : Registers) (raised : Bool) : Registers :=
  registers.set .flag raised.toUInt8

/-- The registers from `v0` to the given one, in order. -/
def upTo (last : Register) : List Register :=
  (List.finRange 16).take (last.val + 1)

def toList (registers : Registers) : List Byte :=
  registers.values.toList

theorem ext_get {left right : Registers} (same : ∀ register, left.get register = right.get register) :
    left = right := by
  cases left
  cases right
  congr
  exact Vector.ext fun index bound => same ⟨index, bound⟩

@[simp] theorem get_zero (register : Register) : zero.get register = 0 := by
  simp [zero, get]

theorem get_set (registers : Registers) (target register : Register) (value : Byte) :
    (registers.set target value).get register =
      if register = target then value else registers.get register := by
  simp only [get, set, Vector.getElem_set, Fin.ext_iff, eq_comm]

@[simp] theorem get_set_self (registers : Registers) (register : Register) (value : Byte) :
    (registers.set register value).get register = value := by
  simp [get_set]

theorem get_set_of_ne {target register : Register} (registers : Registers) (value : Byte)
    (different : register ≠ target) :
    (registers.set target value).get register = registers.get register := by
  simp [get_set, different]

/-- Registers that are set one after the other, each to a value of its own. -/
theorem get_foldl_set (registers : Registers) (targets : List Register) (value : Register → Byte)
    (register : Register) :
    let written := targets.foldl (fun current target => current.set target (value target)) registers
    (register ∈ targets → written.get register = value register) ∧
      (register ∉ targets → written.get register = registers.get register) := by
  induction targets generalizing registers with
  | nil => simp
  | cons target rest ih =>
    obtain ⟨reached, missed⟩ := ih (registers.set target (value target))
    constructor
    · intro member
      by_cases later : register ∈ rest
      · exact reached later
      · have same : register = target := (List.mem_cons.mp member).resolve_right later
        exact (missed later).trans (same ▸ get_set_self ..)
    · intro absent
      have apart := List.ne_of_not_mem_cons absent
      exact (missed (List.not_mem_of_not_mem_cons absent)).trans (get_set_of_ne _ _ apart)

theorem length_upTo (last : Register) : (upTo last).length = last.val + 1 := by
  simp only [upTo, List.length_take, List.length_finRange]
  omega

/-- The values of the registers up to one of them are the first values of all. -/
theorem map_get_upTo (registers : Registers) (last : Register) :
    (upTo last).map registers.get = registers.toList.take (last.val + 1) := by
  rw [upTo, List.map_take]
  congr 1
  refine List.ext_getElem (by simp [toList]) fun index left right => ?_
  simp [get, toList]

theorem getElem?_upTo {last register : Register} (le : register ≤ last) :
    (upTo last)[register.val]? = some register := by
  have inside : register.val < last.val + 1 := Nat.lt_succ_of_le le
  rw [upTo, List.getElem?_take_of_lt inside, List.getElem?_eq_getElem (by simp), List.getElem_finRange]
  rfl

theorem mem_upTo {last register : Register} : register ∈ upTo last ↔ register ≤ last := by
  simp only [upTo, List.mem_take_iff_getElem, List.length_finRange, List.getElem_finRange, Fin.ext_iff,
    Fin.le_def, Fin.val_cast]
  constructor
  · rintro ⟨index, bound, equal⟩
    omega
  · intro le
    exact ⟨register.val, by omega, rfl⟩

end Registers

end Chip8
