import ForeignCall.Proofs.Value.Bits
import ForeignCall.Value.Reference

/-! # References in bytes

The balance of the events that take or drop the references at slots is the number of these slots
that hold the object (`balance_retainSlots`, `balance_releaseSlots`). Which object a slot holds
depends on the eight bytes there and on nothing else.
-/

namespace ForeignCall

/-- How many slots hold a reference to an object. -/
def referencesAt (bytes : List UInt8) (slots : List Nat) (object : Nat) : Nat :=
  slots.countP fun slot => objectAt? bytes slot = some object

variable {bytes left right region : List UInt8} {offset count : Nat}

/-! ## Balances -/

@[simp]
theorem balance_nil (object : Nat) : balance [] object = 0 := rfl

@[simp]
theorem balance_append (earlier later : List ReferenceEvent) (object : Nat) :
    balance (earlier ++ later) object = balance earlier object + balance later object := by
  induction earlier with
  | nil => simp
  | cons event earlier ih =>
    rw [List.cons_append, balance, balance, ih, Int.add_assoc]

theorem referencesAt_cons (bytes : List UInt8) (slot : Nat) (slots : List Nat) (object : Nat) :
    referencesAt bytes (slot :: slots) object =
      referencesAt bytes slots object + if objectAt? bytes slot = some object then 1 else 0 := by
  simp [referencesAt, List.countP_cons]

@[simp]
theorem referencesAt_append (bytes : List UInt8) (earlier later : List Nat) (object : Nat) :
    referencesAt bytes (earlier ++ later) object =
      referencesAt bytes earlier object + referencesAt bytes later object := by
  simp [referencesAt]

/-- One event for every slot that holds an object. -/
theorem balance_map_objectsAt (event : Nat → ReferenceEvent) (change : Int)
    (concerns : ∀ held, (event held).object = held) (changes : ∀ held, (event held).change = change)
    (bytes : List UInt8) (slots : List Nat) (object : Nat) :
    balance ((objectsAt bytes slots).map event) object =
      change * referencesAt bytes slots object := by
  induction slots with
  | nil => simp [objectsAt, referencesAt]
  | cons slot slots ih =>
    rw [referencesAt_cons, Int.natCast_add, Int.mul_add, ← ih]
    cases held : objectAt? bytes slot with
    | none => simp [objectsAt, held]
    | some other =>
      have objects : objectsAt bytes (slot :: slots) = other :: objectsAt bytes slots := by
        simp [objectsAt, held]
      rw [objects, List.map_cons, balance, concerns, changes, Int.add_comm]
      by_cases same : other = object <;> simp [same]

@[simp]
theorem balance_retainSlots (bytes : List UInt8) (slots : List Nat) (object : Nat) :
    balance (retainSlots bytes slots) object = referencesAt bytes slots object := by
  have retained := balance_map_objectsAt .retain 1 (fun _ => rfl) (fun _ => rfl) bytes slots object
  rw [retainSlots, retained, Int.one_mul]

@[simp]
theorem balance_releaseSlots (bytes : List UInt8) (slots : List Nat) (object : Nat) :
    balance (releaseSlots bytes slots) object = -referencesAt bytes slots object := by
  have released :=
    balance_map_objectsAt .release (-1) (fun _ => rfl) (fun _ => rfl) bytes slots object
  rw [releaseSlots, released, Int.neg_mul, Int.one_mul]

/-! ## What a slot holds -/

/-- Which object a slot holds depends on the bits of its eight bytes. -/
theorem objectAt?_congr {slot : Nat} (length : left.length = right.length)
    (same : ∀ bit, 8 * slot ≤ bit → bit < 8 * (slot + pointerSize) →
      Bytes.bitAt left bit = Bytes.bitAt right bit) :
    objectAt? left slot = objectAt? right slot := by
  have slices : Bytes.slice? left slot pointerSize = Bytes.slice? right slot pointerSize := by
    by_cases inside : slot + pointerSize ≤ left.length
    · have inside' : slot + pointerSize ≤ right.length := length ▸ inside
      have first : Bytes.slice? left slot pointerSize = some _ := if_pos inside
      have second : Bytes.slice? right slot pointerSize = some _ := if_pos inside'
      rw [first, second, Option.some.injEq]
      apply Bytes.ext_bitAt
      · rw [Bytes.length_slice? first, Bytes.length_slice? second]
      · intro index
        rw [Bytes.bitAt_slice? first, Bytes.bitAt_slice? second]
        by_cases below : index < 8 * pointerSize
        · rw [same _ (by omega) (by omega)]
        · simp [below]
    · have outside : ¬slot + pointerSize ≤ right.length := length ▸ inside
      simp only [Bytes.slice?, if_neg inside, if_neg outside]
  rw [objectAt?, objectAt?, slices]

/-- A slot of a region holds what the slot of the whole does. -/
theorem objectAt?_slice? {slot : Nat} (found : Bytes.slice? bytes offset count = some region)
    (inside : slot + pointerSize ≤ count) : objectAt? region slot = objectAt? bytes (offset + slot) := by
  have length := Bytes.length_slice? found
  obtain ⟨bound, region_eq⟩ := Bytes.slice?_eq_some_iff.mp found
  have slices : Bytes.slice? region slot pointerSize = Bytes.slice? bytes (offset + slot) pointerSize := by
    rw [Bytes.slice?, Bytes.slice?, if_pos (by omega), if_pos (by omega), region_eq, List.drop_take,
      List.drop_drop, List.take_take, Nat.min_eq_left (by omega)]
  rw [objectAt?, objectAt?, slices]

/-- Zero bytes hold nothing. -/
theorem objectAt?_zeros (count slot : Nat) : objectAt? (Bytes.zeros count) slot = none := by
  cases found : Bytes.slice? (Bytes.zeros count) slot pointerSize with
  | none => simp [objectAt?, found]
  | some region =>
    have zero : Bytes.toNat region = 0 := by
      apply Nat.eq_of_testBit_eq
      intro index
      have bit := Bytes.bitAt_slice? found index
      rw [Bytes.bitAt_zeros, Bool.and_false] at bit
      rw [Nat.zero_testBit]
      exact bit
    simp [objectAt?, found, zero]

theorem referencesAt_congr {slots : List Nat}
    (same : ∀ slot ∈ slots, objectAt? left slot = objectAt? right slot) (object : Nat) :
    referencesAt left slots object = referencesAt right slots object := by
  apply List.countP_congr
  intro slot present
  rw [same slot present]

theorem referencesAt_zeros (count : Nat) (slots : List Nat) (object : Nat) :
    referencesAt (Bytes.zeros count) slots object = 0 := by
  rw [referencesAt, List.countP_eq_zero]
  intro slot _
  simp [objectAt?_zeros]

/-- The references of a region, seen from the whole. -/
theorem referencesAt_slice? {slots : List Nat} (found : Bytes.slice? bytes offset count = some region)
    (inside : ∀ slot ∈ slots, slot + pointerSize ≤ count) (object : Nat) :
    referencesAt bytes (slots.map (offset + ·)) object = referencesAt region slots object := by
  rw [referencesAt, List.countP_map]
  apply List.countP_congr
  intro slot present
  rw [Function.comp_apply, objectAt?_slice? found (inside slot present)]

end ForeignCall
