import ForeignCall.Value.Basic

/-! # Bits of bytes

A bit of a byte list is counted from the lowest bit of its first byte, so a field at a byte offset
and a bitfield inside a storage unit are both runs of bits. Slicing, splicing, and the extraction and
insertion of a bitfield are described bit by bit; `Bytes.ext_bitAt` goes back to bytes.
-/

namespace ForeignCall

namespace Bytes

/-- A bit of bytes, counted from the lowest bit of the first byte. -/
def bitAt (bytes : List UInt8) (index : Nat) : Bool := (toNat bytes).testBit index

theorem pow_256 (count : Nat) : 256 ^ count = 2 ^ (8 * count) := by
  rw [Nat.pow_mul]

theorem bitAt_of_le {bytes : List UInt8} {index : Nat} (beyond : 8 * bytes.length ≤ index) :
    bitAt bytes index = false := by
  apply Nat.testBit_lt_two_pow
  have small := toNat_lt bytes
  rw [pow_256] at small
  exact Nat.lt_of_lt_of_le small (Nat.pow_le_pow_right (by decide) beyond)

theorem toNat_append (left right : List UInt8) :
    toNat (left ++ right) = toNat left + 256 ^ left.length * toNat right := by
  induction left with
  | nil => simp [toNat]
  | cons byte left ih =>
    simp only [List.cons_append, toNat, ih, List.length_cons, Nat.pow_succ]
    rw [Nat.mul_add, ← Nat.mul_assoc, Nat.mul_comm (256 ^ left.length) 256, Nat.add_assoc]

theorem bitAt_append (left right : List UInt8) (index : Nat) :
    bitAt (left ++ right) index =
      if index < 8 * left.length then bitAt left index
      else bitAt right (index - 8 * left.length) := by
  have small := toNat_lt left
  rw [pow_256] at small
  rw [bitAt, toNat_append, pow_256, Nat.add_comm]
  exact Nat.testBit_two_pow_mul_add _ small index

theorem bitAt_take {bytes : List UInt8} {count : Nat} (inside : count ≤ bytes.length)
    (index : Nat) :
    bitAt (bytes.take count) index = (decide (index < 8 * count) && bitAt bytes index) := by
  have length : (bytes.take count).length = count := List.length_take_of_le inside
  have whole := bitAt_append (bytes.take count) (bytes.drop count) index
  rw [List.take_append_drop, length] at whole
  by_cases before : index < 8 * count
  · simp [whole, before]
  · simp only [before, decide_false, Bool.false_and]
    exact bitAt_of_le (by omega)

theorem bitAt_drop {bytes : List UInt8} {count : Nat} (inside : count ≤ bytes.length)
    (index : Nat) : bitAt (bytes.drop count) index = bitAt bytes (8 * count + index) := by
  have length : (bytes.take count).length = count := List.length_take_of_le inside
  have whole := bitAt_append (bytes.take count) (bytes.drop count) (8 * count + index)
  rw [List.take_append_drop, length] at whole
  simp [whole, show ¬8 * count + index < 8 * count by omega]

theorem bitAt_slice? {bytes region : List UInt8} {offset size : Nat}
    (found : slice? bytes offset size = some region) (index : Nat) :
    bitAt region index = (decide (index < 8 * size) && bitAt bytes (8 * offset + index)) := by
  obtain ⟨inside, rfl⟩ := slice?_eq_some_iff.mp found
  rw [bitAt_take (by rw [List.length_drop]; omega), bitAt_drop (by omega)]

/-- Splicing changes the bits under the patch and no others. -/
theorem bitAt_splice {bytes patch : List UInt8} {offset : Nat}
    (inside : offset + patch.length ≤ bytes.length) (index : Nat) :
    bitAt (splice bytes offset patch) index =
      if 8 * offset ≤ index ∧ index < 8 * (offset + patch.length) then
        bitAt patch (index - 8 * offset)
      else bitAt bytes index := by
  have length : (bytes.take offset).length = offset := List.length_take_of_le (by omega)
  rw [splice, List.append_assoc, bitAt_append, bitAt_append, length, bitAt_drop inside,
    bitAt_take (by omega)]
  by_cases before : index < 8 * offset
  · simp [before, show ¬8 * offset ≤ index by omega]
  · by_cases under : index < 8 * (offset + patch.length)
    · simp [before, under, show index - 8 * offset < 8 * patch.length by omega,
        show 8 * offset ≤ index by omega]
    · have position : 8 * (offset + patch.length) + (index - 8 * offset - 8 * patch.length) = index := by
        omega
      simp [before, under, show ¬index - 8 * offset < 8 * patch.length by omega, position]

theorem bitAt_ofNat (count number index : Nat) :
    bitAt (ofNat count number) index = (decide (index < 8 * count) && number.testBit index) := by
  rw [bitAt, toNat_ofNat, pow_256, Nat.testBit_mod_two_pow]

theorem bitAt_zeros (count index : Nat) : bitAt (zeros count) index = false := by
  have zero : toNat (zeros count) = 0 := by
    induction count with
    | zero => rfl
    | succ count ih =>
      rw [zeros] at ih
      simp [zeros, List.replicate_succ, toNat, ih]
  simp [bitAt, zero]

/-- Byte lists of one length with the same bits are the same. -/
theorem ext_bitAt {left right : List UInt8} (length : left.length = right.length)
    (same : ∀ index, bitAt left index = bitAt right index) : left = right := by
  have number : toNat left = toNat right := Nat.eq_of_testBit_eq same
  rw [← ofNat_toNat left, ← ofNat_toNat right, number, length]

end Bytes

namespace BitRange

theorem testBit_extract (range : BitRange) (unit index : Nat) :
    (range.extract unit).testBit index =
      (decide (index < range.width) && unit.testBit (range.start + index)) := by
  rw [extract, Nat.testBit_mod_two_pow, Nat.testBit_div_two_pow, Nat.add_comm]

/-- Insertion changes the bits of the range and no others. -/
theorem testBit_insert (range : BitRange) (unit value index : Nat) :
    (range.insert unit value).testBit index =
      if range.start ≤ index ∧ index < range.start + range.width then
        value.testBit (index - range.start)
      else unit.testBit index := by
  have low : unit % 2 ^ range.start < 2 ^ range.start := Nat.mod_lt _ (Nat.two_pow_pos _)
  have middle : value % 2 ^ range.width < 2 ^ range.width := Nat.mod_lt _ (Nat.two_pow_pos _)
  rw [insert, Nat.add_comm, Nat.testBit_two_pow_mul_add _ low, Nat.add_comm (value % _),
    Nat.testBit_two_pow_mul_add _ middle, Nat.testBit_mod_two_pow, Nat.testBit_mod_two_pow,
    Nat.testBit_div_two_pow]
  by_cases before : index < range.start
  · simp [before, show ¬range.start ≤ index by omega]
  · by_cases under : index < range.start + range.width
    · simp [before, under, show index - range.start < range.width by omega,
        show range.start ≤ index by omega]
    · have position : index - range.start - range.width + (range.start + range.width) = index := by
        omega
      simp [before, under, show ¬index - range.start < range.width by omega, position]

end BitRange

end ForeignCall
