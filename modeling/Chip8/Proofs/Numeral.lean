import Chip8.Text.Numeral

namespace Chip8.Numeral

/-- The value of hexadecimal digits in either case. -/
def hexValue (digits : List Char) : Nat :=
  digits.foldl (fun value c => 16 * value + (digit? 16 c).getD 0) 0

theorem hexValue_append_singleton (digits : List Char) (c : Char) :
    hexValue (digits ++ [c]) = 16 * hexValue digits + (digit? 16 c).getD 0 := by
  simp only [hexValue, List.foldl_append, List.foldl_cons, List.foldl_nil]

/-- A way of writing digits that has all sixteen of them. -/
def WritesDigits (style : Char → Char) : Prop :=
  ∀ value < 16, digit? 16 (style (Nat.digitChar value)) = some value

theorem writesDigits_lower : WritesDigits id := by
  unfold WritesDigits
  decide

theorem writesDigits_upper : WritesDigits Char.toUpper := by
  unfold WritesDigits
  decide

variable {style : Char → Char}

theorem hexValue_map_toDigits (writes : WritesDigits style) (value : Nat) :
    hexValue ((Nat.toDigits 16 value).map style) = value := by
  induction value using Nat.strongRecOn with
  | ind value ih =>
    rw [Nat.toDigits_eq_if (by decide)]
    split
    · rename_i small
      simp [hexValue, writes value small]
    · rename_i large
      have digit := writes (value % 16) (Nat.mod_lt _ (by decide))
      rw [List.map_append, List.map_singleton, hexValue_append_singleton, ih (value / 16) (by omega), digit,
        Option.getD_some]
      omega

theorem isSome_digit?_of_mem_toDigits (writes : WritesDigits style) {value : Nat} {c : Char}
    (member : c ∈ (Nat.toDigits 16 value).map style) : (digit? 16 c).isSome = true := by
  induction value using Nat.strongRecOn with
  | ind value ih =>
    rw [Nat.toDigits_eq_if (by decide)] at member
    split at member
    · rename_i small
      rw [List.map_singleton, List.mem_singleton] at member
      rw [member, writes value small]
      rfl
    · rename_i large
      rw [List.map_append, List.mem_append, List.map_singleton, List.mem_singleton] at member
      rcases member with earlier | last
      · exact ih (value / 16) (by omega) earlier
      · rw [last, writes (value % 16) (Nat.mod_lt _ (by decide))]
        rfl

theorem hexValue_replicate_zero_append (count : Nat) (digits : List Char) :
    hexValue (List.replicate count '0' ++ digits) = hexValue digits := by
  have zero : digit? 16 '0' = some 0 := by decide
  induction count with
  | zero => rfl
  | succ count ih =>
    rw [← ih]
    simp [List.replicate_succ, hexValue, zero]

theorem hexValue_hex (width value : Nat) : hexValue (hex width value).toList = value := by
  have lower := hexValue_map_toDigits writesDigits_lower value
  rw [List.map_id] at lower
  rw [hex, String.toList_ofList, List.leftpad, hexValue_replicate_zero_append, lower]

theorem hexValue_upperHex (value : Nat) : hexValue (upperHex value).toList = value := by
  rw [upperHex, String.toList_ofList, hexValue_map_toDigits writesDigits_upper]

/-- Numbers written with the same width differ when the numbers do. -/
theorem hex_injective (width : Nat) : Function.Injective (hex width) := by
  intro left right same
  rw [← hexValue_hex width left, same, hexValue_hex]

theorem isSome_digit?_of_mem_hex {width value : Nat} {c : Char} (member : c ∈ (hex width value).toList) :
    (digit? 16 c).isSome = true := by
  rw [hex, String.toList_ofList, List.leftpad, List.mem_append] at member
  rcases member with padding | digit
  · rw [List.eq_of_mem_replicate padding]
    rfl
  · rw [← List.map_id (Nat.toDigits 16 value)] at digit
    exact isSome_digit?_of_mem_toDigits writesDigits_lower digit

theorem isSome_digit?_of_mem_upperHex {value : Nat} {c : Char} (member : c ∈ (upperHex value).toList) :
    (digit? 16 c).isSome = true := by
  rw [upperHex, String.toList_ofList] at member
  exact isSome_digit?_of_mem_toDigits writesDigits_upper member

theorem not_mem_hex {c : Char} (noDigit : digit? 16 c = none) (width value : Nat) :
    c ∉ (hex width value).toList := by
  intro member
  have found := isSome_digit?_of_mem_hex member
  simp [noDigit] at found

theorem not_mem_upperHex {c : Char} (noDigit : digit? 16 c = none) (value : Nat) :
    c ∉ (upperHex value).toList := by
  intro member
  have found := isSome_digit?_of_mem_upperHex member
  simp [noDigit] at found

theorem hex_ne_empty (width value : Nat) : (hex width value).toList ≠ [] := by
  rw [hex, String.toList_ofList, List.leftpad]
  exact List.append_ne_nil_of_right_ne_nil _ Nat.toDigits_ne_nil

end Chip8.Numeral
