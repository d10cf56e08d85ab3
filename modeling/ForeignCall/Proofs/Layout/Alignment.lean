import ForeignCall.CType.Layout

/-! # Alignments

Types are aligned to 1, 2, 4, 8 or 16 bytes, and the size of a type is a multiple of its alignment.
Alignments divide one another as they grow, so the alignment of an aggregate, which is the largest
of its members', is a multiple of each of them. `Layout.IsSound` is kept by every construction of a
layout from smaller ones.
-/

namespace ForeignCall

/-- The alignments that types have. -/
def IsAlignment (bytes : Nat) : Prop := bytes ∈ [1, 2, 4, 8, 16]

instance (bytes : Nat) : Decidable (IsAlignment bytes) :=
  inferInstanceAs (Decidable (bytes ∈ [1, 2, 4, 8, 16]))

namespace IsAlignment

variable {left right : Nat}

theorem cases_iff : IsAlignment left ↔ left = 1 ∨ left = 2 ∨ left = 4 ∨ left = 8 ∨ left = 16 := by
  simp [IsAlignment]

theorem pos (alignment : IsAlignment left) : 0 < left := by
  rw [cases_iff] at alignment
  omega

/-- Among alignments, the smaller divides the larger. -/
theorem dvd_of_le (small : IsAlignment left) (large : IsAlignment right) (le : left ≤ right) :
    left ∣ right := by
  rw [cases_iff] at small large
  rcases small with rfl | rfl | rfl | rfl | rfl <;>
    rcases large with rfl | rfl | rfl | rfl | rfl <;> omega

theorem max (first : IsAlignment left) (second : IsAlignment right) :
    IsAlignment (Max.max left right) := by
  rcases Nat.le_total left right with le | le
  · rwa [Nat.max_eq_right le]
  · rwa [Nat.max_eq_left le]

end IsAlignment

/-- A power of two, cut off at the largest alignment, is an alignment and divides the power. -/
private theorem min_pow_isAlignment (exponent : Nat) :
    IsAlignment (min (2 ^ exponent) maxVectorAlignment) ∧
      min (2 ^ exponent) maxVectorAlignment ∣ 2 ^ exponent := by
  rcases Nat.lt_or_ge exponent 4 with small | large
  · have cases : exponent = 0 ∨ exponent = 1 ∨ exponent = 2 ∨ exponent = 3 := by omega
    rcases cases with rfl | rfl | rfl | rfl <;> decide
  · have above : 2 ^ 4 ≤ 2 ^ exponent := Nat.pow_le_pow_right (by decide) large
    have cut : min (2 ^ exponent) maxVectorAlignment = 2 ^ 4 := Nat.min_eq_right above
    rw [cut]
    constructor
    · decide
    · exact Nat.pow_dvd_pow 2 large

namespace Layout

/-- A layout that a variable can have: an array of it keeps every element aligned. -/
structure IsSound (layout : Layout) : Prop where
  alignment : IsAlignment layout.alignment
  dvd_size : layout.alignment ∣ layout.size

theorem isSound_empty : empty.IsSound := by
  constructor <;> decide

theorem isSound_pointer : pointer.IsSound := by
  constructor <;> decide

theorem isSound_scalar (kind : Scalar) : IsSound ⟨kind.size, kind.alignment⟩ := by
  cases kind <;> constructor <;> decide

theorem isSound_storageUnit {width unit : Nat} (known : storageUnit? width = some unit) :
    IsSound ⟨unit, unit⟩ := by
  unfold storageUnit? at known
  split at known
  · cases known
    constructor <;> decide
  · split at known
    · cases known
      constructor <;> decide
    · contradiction

theorem IsSound.repeated {element layout : Layout} {count : Nat} (sound : element.IsSound)
    (known : element.repeated? count = some layout) : layout.IsSound := by
  obtain ⟨size, fits, rfl⟩ := Option.map_eq_some_iff.mp known
  obtain ⟨_, rfl⟩ := fits?_eq_some_iff.mp fits
  exact ⟨sound.alignment, Nat.dvd_mul_right_of_dvd sound.dvd_size count⟩

theorem isSound_vector {inner layout : Layout} (known : inner.vector? = some layout) :
    layout.IsSound := by
  obtain ⟨size, fits, rfl⟩ := Option.map_eq_some_iff.mp known
  obtain ⟨_, rfl⟩ := fits?_eq_some_iff.mp fits
  obtain ⟨exponent, power⟩ := leastPowerOfTwo_eq_pow (Max.max inner.size 1)
  simp only [power]
  exact ⟨(min_pow_isAlignment exponent).1, (min_pow_isAlignment exponent).2⟩

end Layout

end ForeignCall
