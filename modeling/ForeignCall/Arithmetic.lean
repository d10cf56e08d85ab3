/-! # Arithmetic

Sizes and offsets are natural numbers; `fits?` refuses those that do not fit a 64-bit address. Sizes are
rounded up to a multiple (`roundUp`) or to a power of two (`leastPowerOfTwo`).
-/

namespace ForeignCall

-- A power of a natural number is the core library's, also beside a library that has its own.
attribute [instance (2000)] instPowNat

/-- Sizes and offsets are smaller than this. -/
def addressLimit : Nat := UInt64.size

def maxAddress : Nat := addressLimit - 1

/-- A size or offset, if it fits an address. -/
def fits? (amount : Nat) : Option Nat := if amount < addressLimit then some amount else none

/-- The least multiple of `step` that is not below `amount`. -/
def roundUp (amount step : Nat) : Nat := (amount + step - 1) / step * step

/-- The least power of two that is not below `amount`. -/
def leastPowerOfTwo (amount : Nat) : Nat := if amount ≤ 1 then 1 else 2 ^ (Nat.log2 (amount - 1) + 1)

theorem fits?_eq_some_iff {amount fitting : Nat} :
    fits? amount = some fitting ↔ amount < addressLimit ∧ amount = fitting := by
  simp [fits?]

theorem le_roundUp (amount : Nat) {step : Nat} (positive : 0 < step) : amount ≤ roundUp amount step := by
  have split := Nat.div_add_mod (amount + step - 1) step
  have rest := Nat.mod_lt (amount + step - 1) positive
  rw [roundUp, Nat.mul_comm]
  omega

theorem dvd_roundUp (amount step : Nat) : step ∣ roundUp amount step :=
  Nat.dvd_mul_left step _

/-- Rounding up stops at the first multiple. -/
theorem roundUp_le {amount step bound : Nat} (positive : 0 < step) (multiple : step ∣ bound)
    (le : amount ≤ bound) : roundUp amount step ≤ bound := by
  obtain ⟨count, rfl⟩ := multiple
  have quotient : (amount + step - 1) / step < count + 1 := by
    rw [Nat.div_lt_iff_lt_mul positive, Nat.add_mul, Nat.one_mul, Nat.mul_comm]
    omega
  rw [roundUp, Nat.mul_comm step]
  exact Nat.mul_le_mul_right step (Nat.le_of_lt_succ quotient)

theorem roundUp_of_dvd {amount step : Nat} (positive : 0 < step) (multiple : step ∣ amount) :
    roundUp amount step = amount :=
  Nat.le_antisymm (roundUp_le positive multiple (Nat.le_refl _)) (le_roundUp amount positive)

theorem roundUp_mono {step low high : Nat} (positive : 0 < step) (le : low ≤ high) :
    roundUp low step ≤ roundUp high step :=
  roundUp_le positive (dvd_roundUp high step) (Nat.le_trans le (le_roundUp high positive))

theorem roundUp_roundUp {amount small large : Nat} (smallPositive : 0 < small) (largePositive : 0 < large)
    (multiple : small ∣ large) : roundUp (roundUp amount small) large = roundUp amount large := by
  apply Nat.le_antisymm
  · refine roundUp_le largePositive (dvd_roundUp amount large) ?_
    exact roundUp_le smallPositive (Nat.dvd_trans multiple (dvd_roundUp amount large))
      (le_roundUp amount largePositive)
  · exact roundUp_mono largePositive (le_roundUp amount smallPositive)

/-- Different multiples of a step are at least the step apart. -/
theorem add_le_of_dvd_of_lt {step low high : Nat} (lowAligned : step ∣ low)
    (highAligned : step ∣ high) (less : low < high) : low + step ≤ high := by
  obtain ⟨first, rfl⟩ := lowAligned
  obtain ⟨second, rfl⟩ := highAligned
  have below : first + 1 ≤ second := Nat.lt_of_mul_lt_mul_left less
  calc
    step * first + step = step * (first + 1) := (Nat.mul_succ step first).symm
    _ ≤ step * second := Nat.mul_le_mul_left step below

/-- What lies within one stride ends before a later one begins. -/
theorem stride_end_le {stride first second stop : Nat} (less : first < second) (inside : stop ≤ stride) :
    stride * first + stop ≤ stride * second :=
  calc
    stride * first + stop ≤ stride * first + stride := Nat.add_le_add_left inside _
    _ = stride * (first + 1) := (Nat.mul_succ stride first).symm
    _ ≤ stride * second := Nat.mul_le_mul_left stride (Nat.succ_le_of_lt less)

theorem leastPowerOfTwo_eq_pow (amount : Nat) : ∃ exponent : Nat, leastPowerOfTwo amount = 2 ^ exponent := by
  unfold leastPowerOfTwo
  split
  · exact ⟨0, rfl⟩
  · exact ⟨_, rfl⟩

end ForeignCall
