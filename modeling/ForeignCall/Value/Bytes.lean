import ForeignCall.Arithmetic

/-! # Bytes in memory

Numbers in little-endian bytes, and slices of byte lists. `toNat_ofNat` says that a number written in
`count` bytes reads back modulo `256 ^ count`, and `ofNat_toNat` that bytes are written back as they
were; `length_splice` says that overwriting a slice keeps the length.
-/

namespace ForeignCall.Bytes

/-- The number that bytes hold, least significant byte first. -/
def toNat : List UInt8 → Nat
  | [] => 0
  | byte :: bytes => byte.toNat + 256 * toNat bytes

/-- A number in `count` bytes, least significant byte first; higher digits are cut off. -/
def ofNat : Nat → Nat → List UInt8
  | 0, _ => []
  | count + 1, number => UInt8.ofNat number :: ofNat count (number / 256)

/-- The number that bytes hold in two's complement. -/
def toInt (bytes : List UInt8) : Int := Int.bmod (toNat bytes) (256 ^ bytes.length)

/-- A number in `count` bytes in two's complement. -/
def ofInt (count : Nat) (number : Int) : List UInt8 := ofNat count (number % 256 ^ count).toNat

def zeros (count : Nat) : List UInt8 := List.replicate count 0

/-- The `size` bytes at an offset, if all of them exist. -/
def slice? (bytes : List UInt8) (offset size : Nat) : Option (List UInt8) :=
  if offset + size ≤ bytes.length then some ((bytes.drop offset).take size) else none

/-- The bytes with those at an offset overwritten. -/
def splice (bytes : List UInt8) (offset : Nat) (patch : List UInt8) : List UInt8 :=
  bytes.take offset ++ patch ++ bytes.drop (offset + patch.length)

/-- A byte in two hexadecimal digits. -/
def hexByte (byte : UInt8) : List Char :=
  [Nat.digitChar (byte.toNat / 16), Nat.digitChar (byte.toNat % 16)]

def hex (bytes : List UInt8) : String := String.ofList (bytes.flatMap hexByte)

@[simp]
theorem length_ofNat (count number : Nat) : (ofNat count number).length = count := by
  induction count generalizing number with
  | zero => rfl
  | succ count ih => simp [ofNat, ih]

theorem toNat_lt (bytes : List UInt8) : toNat bytes < 256 ^ bytes.length := by
  induction bytes with
  | nil => simp [toNat]
  | cons byte bytes ih =>
    have small := byte.toNat_lt
    simp only [toNat, List.length_cons, Nat.pow_succ]
    omega

theorem toNat_ofNat (count number : Nat) : toNat (ofNat count number) = number % 256 ^ count := by
  induction count generalizing number with
  | zero => simp [ofNat, toNat, Nat.mod_one]
  | succ count ih =>
    simp only [ofNat, toNat, ih, UInt8.toNat_ofNat']
    rw [show 256 ^ (count + 1) = 256 * 256 ^ count by rw [Nat.pow_succ, Nat.mul_comm], Nat.mod_mul]

theorem ofNat_toNat (bytes : List UInt8) : ofNat bytes.length (toNat bytes) = bytes := by
  induction bytes with
  | nil => rfl
  | cons byte bytes ih =>
    have small := byte.toNat_lt
    have digit : UInt8.ofNat (byte.toNat + 256 * toNat bytes) = byte := by
      apply UInt8.toNat_inj.mp
      rw [UInt8.toNat_ofNat']
      omega
    have rest : (byte.toNat + 256 * toNat bytes) / 256 = toNat bytes := by omega
    simp only [List.length_cons, ofNat, toNat, digit, rest, ih]

@[simp]
theorem length_ofInt (count : Nat) (number : Int) : (ofInt count number).length = count := by
  simp [ofInt]

@[simp]
theorem length_zeros (count : Nat) : (zeros count).length = count := by simp [zeros]

theorem slice?_eq_some_iff {bytes region : List UInt8} {offset size : Nat} :
    slice? bytes offset size = some region ↔
      offset + size ≤ bytes.length ∧ region = (bytes.drop offset).take size := by
  unfold slice?
  split
  · next inside => simp [inside, eq_comm]
  · next outside => simp [outside]

theorem length_slice? {bytes region : List UInt8} {offset size : Nat}
    (found : slice? bytes offset size = some region) : region.length = size := by
  obtain ⟨inside, rfl⟩ := slice?_eq_some_iff.mp found
  rw [List.length_take, List.length_drop]
  omega

theorem slice?_bound {bytes region : List UInt8} {offset size : Nat}
    (found : slice? bytes offset size = some region) : offset + size ≤ bytes.length :=
  (slice?_eq_some_iff.mp found).1

theorem length_splice {bytes patch : List UInt8} {offset : Nat}
    (inside : offset + patch.length ≤ bytes.length) :
    (splice bytes offset patch).length = bytes.length := by
  simp only [splice, List.length_append, List.length_take, List.length_drop]
  omega

end ForeignCall.Bytes
