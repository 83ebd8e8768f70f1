import Chip8.Keypad
import Mathlib.Data.Finset.Basic
import Mathlib.Data.List.FinRange
import Mathlib.Order.Bounds.Defs

namespace Chip8

/-- A key pressed or released. A host may name any number. -/
structure KeyEvent where
  key : Nat
  pressed : Bool
deriving DecidableEq

namespace KeyEvent

/-- The keys held after an event, if the given ones were held before it. -/
def applyTo (event : KeyEvent) (keys : Finset Nat) : Finset Nat :=
  if event.key < 16 then
    if event.pressed then insert event.key keys else keys.erase event.key
  else keys

/-- The keys held after a list of events, if none was held before. -/
def keysAfter (events : List KeyEvent) : Finset Nat :=
  events.foldl (fun keys event => event.applyTo keys) ∅

section Apply

variable {event : KeyEvent} {keys : Finset Nat} {number : Nat}

theorem mem_applyTo_self (inRange : event.key < 16) :
    event.key ∈ event.applyTo keys ↔ event.pressed = true := by
  rw [applyTo, if_pos inRange]
  cases event.pressed <;> simp

/-- An event is about one key. -/
theorem mem_applyTo_of_ne (different : number ≠ event.key) :
    number ∈ event.applyTo keys ↔ number ∈ keys := by
  rw [applyTo]
  split
  · cases event.pressed <;> simp [different]
  · rfl

theorem applyTo_of_missing (missing : ¬ event.key < 16) : event.applyTo keys = keys := by
  rw [applyTo, if_neg missing]

end Apply

theorem keysAfter_concat (events : List KeyEvent) (event : KeyEvent) :
    keysAfter (events ++ [event]) = event.applyTo (keysAfter events) := by
  simp only [keysAfter, List.foldl_append, List.foldl_cons, List.foldl_nil]

/-- A key is in the set if the last event for it has pressed it. -/
theorem mem_keysAfter_iff {number : Nat} (inRange : number < 16) (events : List KeyEvent) :
    number ∈ keysAfter events ↔
      (events.filter fun event => event.key = number).getLast? = some ⟨number, true⟩ := by
  induction events using List.reverseRecOn with
  | nil => simp [keysAfter]
  | append_singleton events event ih =>
    rw [keysAfter_concat, List.filter_append]
    by_cases same : event.key = number
    · subst same
      rw [mem_applyTo_self inRange, List.filter_singleton, decide_eq_true rfl, cond_true,
        List.getLast?_concat]
      cases event
      simp
    · rw [mem_applyTo_of_ne (Ne.symm same), ih, List.filter_singleton, decide_eq_false same, cond_false,
        List.append_nil]

theorem lt_of_mem_keysAfter {number : Nat} {events : List KeyEvent}
    (member : number ∈ keysAfter events) : number < 16 := by
  induction events using List.reverseRecOn with
  | nil => simp [keysAfter] at member
  | append_singleton events event ih =>
    rw [keysAfter_concat] at member
    by_cases inRange : event.key < 16
    · by_cases same : number = event.key
      · exact same ▸ inRange
      · exact ih ((mem_applyTo_of_ne same).mp member)
    · rw [applyTo_of_missing inRange] at member
      exact ih member

end KeyEvent

namespace Keypad

/-- The keypad after a list of events. -/
def setAll (keypad : Keypad) (events : List KeyEvent) : Keypad :=
  events.foldl (fun current event => (current.set event.key event.pressed).1) keypad

/-- The numbers of the keys held. -/
def keySet (keypad : Keypad) : Finset Nat :=
  (keypad.heldKeys.map Fin.val).toFinset

section Set

variable (keypad : Keypad) {key : Nat} (pressed : Bool)

/-- There is no key to press or release. -/
theorem set_of_missing (missing : ¬ key < 16) : keypad.set key pressed = (keypad, false) := by
  rw [set, dif_neg missing]

theorem isHeld_set_self (inRange : key < 16) :
    (keypad.set key pressed).1.isHeld ⟨key, inRange⟩ = pressed := by
  rw [set, dif_pos inRange]
  split
  · assumption
  · simp only [isHeld, Fin.getElem_fin, Vector.getElem_set_self]

/-- An event changes one key at most. -/
theorem isHeld_set_of_ne {other : Key} (different : other.val ≠ key) :
    (keypad.set key pressed).1.isHeld other = keypad.isHeld other := by
  by_cases inRange : key < 16
  · rw [set, dif_pos inRange]
    split
    · rfl
    · simp only [isHeld, Fin.getElem_fin, Vector.getElem_set_ne _ _ (Ne.symm different)]
  · rw [set_of_missing keypad pressed inRange]

/-- An event is reported as a change if the keypad is not the same afterwards. -/
theorem changed_set_iff :
    (keypad.set key pressed).2 = true ↔ (keypad.set key pressed).1 ≠ keypad := by
  by_cases inRange : key < 16
  · have held := keypad.isHeld_set_self pressed inRange
    rw [set, dif_pos inRange] at held ⊢
    split
    · simp
    · rename_i different
      refine iff_of_true rfl fun same => different ?_
      rw [if_neg different, same] at held
      exact held
  · rw [set_of_missing keypad pressed inRange]
    simp

end Set

theorem ext_isHeld {left right : Keypad}
    (same : ∀ key, left.isHeld key = true ↔ right.isHeld key = true) : left = right := by
  cases left
  cases right
  congr
  exact Vector.ext fun index bound => Bool.eq_iff_iff.mpr (same ⟨index, bound⟩)

@[simp] theorem isHeld_empty (key : Key) : empty.isHeld key = false := by
  simp [isHeld, empty]

theorem mem_keySet_iff {keypad : Keypad} {number : Nat} :
    number ∈ keypad.keySet ↔ ∃ key, keypad.isHeld key = true ∧ key.val = number := by
  simp [keySet, heldKeys]

theorem val_mem_keySet_iff {keypad : Keypad} {key : Key} :
    key.val ∈ keypad.keySet ↔ keypad.isHeld key = true := by
  simp [mem_keySet_iff, Fin.val_inj]

/-- A keypad is told by the set of its keys. -/
theorem ext_keySet {left right : Keypad} (same : left.keySet = right.keySet) : left = right := by
  refine ext_isHeld fun key => ?_
  rw [← val_mem_keySet_iff, ← val_mem_keySet_iff, same]

theorem keySet_empty : empty.keySet = ∅ := by
  ext number
  simp [mem_keySet_iff]

/-- An event does to the keypad what it does to the set. -/
theorem keySet_set (keypad : Keypad) (event : KeyEvent) :
    (keypad.set event.key event.pressed).1.keySet = event.applyTo keypad.keySet := by
  by_cases inRange : event.key < 16
  · ext number
    by_cases same : number = event.key
    · subst same
      have named : (⟨event.key, inRange⟩ : Key).val = event.key := rfl
      rw [KeyEvent.mem_applyTo_self inRange, ← named, val_mem_keySet_iff, isHeld_set_self]
    · rw [KeyEvent.mem_applyTo_of_ne same, mem_keySet_iff, mem_keySet_iff]
      refine exists_congr fun other => and_congr_left fun named => ?_
      rw [isHeld_set_of_ne _ _ (named ▸ same)]
  · rw [set_of_missing keypad event.pressed inRange, KeyEvent.applyTo_of_missing inRange]

/-- An event is reported as a change if its key exists and the set is another one afterwards. -/
theorem changed_set_iff_applyTo (keypad : Keypad) (event : KeyEvent) :
    (keypad.set event.key event.pressed).2 = true ↔
      event.key < 16 ∧ event.applyTo keypad.keySet ≠ keypad.keySet := by
  rw [changed_set_iff, ← keySet_set]
  constructor
  · intro changed
    refine ⟨?_, fun same => changed (ext_keySet same)⟩
    by_contra missing
    rw [set_of_missing keypad event.pressed missing] at changed
    exact changed rfl
  · rintro ⟨_, different⟩ unchanged
    exact different (congrArg keySet unchanged)

theorem keySet_setAll (keypad : Keypad) (events : List KeyEvent) :
    (keypad.setAll events).keySet =
      events.foldl (fun keys event => event.applyTo keys) keypad.keySet := by
  induction events generalizing keypad with
  | nil => rfl
  | cons event rest ih =>
    rw [List.foldl_cons, ← keySet_set]
    exact ih (keypad.set event.key event.pressed).1

/-- The lowest key held is held, and no key below it is. -/
theorem lowestHeld_eq_some_iff {keypad : Keypad} {key : Key} :
    keypad.lowestHeld = some key ↔
      keypad.isHeld key = true ∧ ∀ other, keypad.isHeld other = true → key ≤ other := by
  rw [lowestHeld, List.find?_eq_some_iff_append]
  have sorted := List.pairwise_lt_finRange 16
  constructor
  · rintro ⟨held, below, above, split, unheld⟩
    refine ⟨held, fun other otherHeld => ?_⟩
    have member : other ∈ below ++ key :: above := split ▸ List.mem_finRange other
    rcases List.mem_append.mp member with low | high
    · have released := unheld other low
      rw [otherHeld] at released
      contradiction
    · rw [split] at sorted
      have later := (List.pairwise_append.mp sorted).2.1
      rcases List.mem_cons.mp high with rfl | behind
      · exact Fin.le_refl _
      · exact Fin.le_of_lt (List.rel_of_pairwise_cons later behind)
  · rintro ⟨held, least⟩
    obtain ⟨below, above, split⟩ := List.append_of_mem (List.mem_finRange key)
    refine ⟨held, below, above, split, fun other low => ?_⟩
    rw [split] at sorted
    have lower := (List.pairwise_append.mp sorted).2.2 other low key (List.mem_cons_self ..)
    have released : keypad.isHeld other ≠ true := fun otherHeld =>
      absurd (least other otherHeld) (Fin.not_le.mpr lower)
    simpa using released

theorem lowestHeld_eq_some_iff_isLeast {keypad : Keypad} {key : Key} :
    keypad.lowestHeld = some key ↔ IsLeast (keypad.keySet : Set Nat) key.val := by
  rw [lowestHeld_eq_some_iff, ← val_mem_keySet_iff]
  refine and_congr_right fun _ => ⟨fun least number member => ?_, fun least other held => ?_⟩
  · obtain ⟨other, held, rfl⟩ := mem_keySet_iff.mp member
    exact least other held
  · exact least (val_mem_keySet_iff.mpr held)

theorem lowestHeld_eq_none_iff {keypad : Keypad} : keypad.lowestHeld = none ↔ keypad.keySet = ∅ := by
  rw [lowestHeld_eq_head?, List.head?_eq_none_iff, keySet, List.toFinset_eq_empty_iff,
    List.map_eq_nil_iff]

/-- A keypad is a set of keys: the last event at a key decides whether it is held, and a number that names
no key changes nothing. -/
theorem keys_exact (events : List KeyEvent) :
    let keypad := empty.setAll events
    let keys := KeyEvent.keysAfter events
    (∀ number ∈ keys, number ≤ 15) ∧
    (∀ key : Key,
      (keypad.isHeld key = true ↔ key.val ∈ keys) ∧
      (keypad.isHeld key = true ↔
        (events.filter fun event => event.key = key.val).getLast? = some ⟨key.val, true⟩)) ∧
    (∀ (key : Nat) (pressed : Bool),
      ((keypad.set key pressed).2 = true ↔
        key ≤ 15 ∧ KeyEvent.keysAfter (events ++ [⟨key, pressed⟩]) ≠ keys) ∧
      (15 < key → keypad.set key pressed = (keypad, false))) ∧
    (∀ byte, keypad.isHeld (keyOfByte byte) = true ↔ byte.toNat % 16 ∈ keys) ∧
    (∀ key, keypad.lowestHeld = some key ↔ IsLeast (keys : Set Nat) key.val) ∧
    (keypad.lowestHeld = none ↔ keys = ∅) := by
  intro keypad keys
  have same : keypad.keySet = keys := by
    rw [keySet_setAll, keySet_empty]
    rfl
  have held (key : Key) : keypad.isHeld key = true ↔ key.val ∈ keys := by
    rw [← same, val_mem_keySet_iff]
  refine ⟨fun number member => ?_, fun key => ⟨held key, ?_⟩, fun key pressed => ⟨?_, fun high => ?_⟩,
    fun byte => held (keyOfByte byte), fun key => ?_, ?_⟩
  · exact Nat.le_of_lt_succ (KeyEvent.lt_of_mem_keysAfter member)
  · rw [held, KeyEvent.mem_keysAfter_iff key.isLt]
  · have changed := keypad.changed_set_iff_applyTo ⟨key, pressed⟩
    rw [same, ← KeyEvent.keysAfter_concat] at changed
    rw [changed, Nat.lt_succ_iff]
  · exact keypad.set_of_missing pressed (Nat.not_lt_of_le high)
  · rw [lowestHeld_eq_some_iff_isLeast, same]
  · rw [lowestHeld_eq_none_iff, same]

/-- Key 3 is pressed and released, and there is no key 21, though its low four bits are those of key 5. -/
def strayEvents : List KeyEvent := [⟨3, true⟩, ⟨14, true⟩, ⟨21, true⟩, ⟨12, true⟩, ⟨3, false⟩]

/-- Two keys are held, and a byte may name them with any high bits. A number beyond the keys still changes
nothing when its low bits name a key that is not held. -/
theorem keys_exact_strayEvents :
    let keypad := empty.setAll strayEvents
    keypad.isHeld 12 = true ∧ ¬ keypad.isHeld 5 = true ∧ keypad.isHeld (keyOfByte 0xfe) = true ∧
      keypad.lowestHeld = some 12 ∧ (keypad.set 12 false).2 = true ∧ ¬ (keypad.set 14 true).2 = true ∧
      15 < 0x25 ∧ keypad.set 0x25 true = (keypad, false) := by
  intro keypad
  obtain ⟨_, held, calls, byByte, lowest, _⟩ := keys_exact strayEvents
  have keys : KeyEvent.keysAfter strayEvents = {12, 14} := by decide
  have least : ∀ number ∈ ({12, 14} : Finset Nat), 12 ≤ number := by decide
  rw [keys] at calls byByte lowest
  refine ⟨(held 12).2.mpr (by decide), fun stray => ?_, (byByte 0xfe).mpr (by decide),
    (lowest 12).mpr ⟨by simp, fun number member => least number member⟩, (calls 12 false).1.mpr (by decide),
    fun changed => ?_, by decide, (calls 0x25 true).2 (by decide)⟩
  · exact absurd ((held 5).2.mp stray) (by decide)
  · exact absurd ((calls 14 true).1.mp changed) (by decide)

end Keypad

end Chip8
