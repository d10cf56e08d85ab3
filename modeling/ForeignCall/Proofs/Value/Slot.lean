import ForeignCall.Proofs.Value.Bits

/-! # Slots

What reading and writing a slot does to the bits of a value. A slot covers a run of bits: all bits of
its bytes, or those of a bitfield inside its storage unit. A write changes exactly these
(`Value.bitAt_of_writeSlot`), and a read depends on no others (`Value.readSlot_congr`).
-/

namespace ForeignCall

namespace Slot

def byteCount (slot : Slot) : Nat := (slot.type.layout?.map (·.size)).getD 0

/-- The first bit that counts, inside the slot's region. -/
def startBit (slot : Slot) : Nat := (slot.bits.map (·.start)).getD 0

def bitCount (slot : Slot) : Nat := (slot.bits.map (·.width)).getD (8 * slot.byteCount)

def firstBit (slot : Slot) : Nat := 8 * slot.offset + slot.startBit

/-- The bits of a value that belong to a slot. -/
def Covers (slot : Slot) (index : Nat) : Prop :=
  slot.firstBit ≤ index ∧ index < slot.firstBit + slot.bitCount

instance (slot : Slot) (index : Nat) : Decidable (slot.Covers index) :=
  inferInstanceAs (Decidable (_ ∧ _))

/-- The bits of a bitfield lie inside its storage unit. -/
def Fits (slot : Slot) : Prop :=
  ∀ range, slot.bits = some range → range.start + range.width ≤ 8 * slot.byteCount

variable {slot : Slot} {region bytes : List UInt8}

theorem Fits.end_le (fits : slot.Fits) : slot.startBit + slot.bitCount ≤ 8 * slot.byteCount := by
  cases bits : slot.bits with
  | none => simp [startBit, bitCount, bits]
  | some range => simpa [startBit, bitCount, bits] using fits range bits

/-- A slot without a range of bits fits. -/
theorem fits_of_bits_eq_none (ordinary : slot.bits = none) : slot.Fits := by
  intro range bits
  rw [ordinary] at bits
  contradiction

/-- A bit of a slot is a bit of its value. -/
theorem covers_of_lt {index : Nat} (inside : index < slot.bitCount) :
    slot.Covers (8 * slot.offset + (slot.startBit + index)) := by
  simp only [Covers, firstBit]
  omega

@[simp]
theorem length_content (slot : Slot) (region : List UInt8) :
    (slot.content region).length = region.length := by
  unfold content
  split <;> simp

theorem bitAt_content (fits : slot.Fits) (size : region.length = slot.byteCount) (index : Nat) :
    Bytes.bitAt (slot.content region) index =
      (decide (index < slot.bitCount) && Bytes.bitAt region (slot.startBit + index)) := by
  cases bits : slot.bits with
  | none =>
    simp only [content, bits, bitCount, startBit, Option.map_none, Option.getD_none, Nat.zero_add]
    by_cases inside : index < 8 * slot.byteCount
    · simp [inside]
    · rw [Bytes.bitAt_of_le (by omega), Bool.and_false]
  | some range =>
    have bound := fits range bits
    simp only [content, bits, bitCount, startBit, Option.map_some, Option.getD_some,
      Bytes.bitAt_ofNat, BitRange.testBit_extract]
    by_cases inside : index < range.width
    · simp [inside, show index < 8 * region.length by omega, Bytes.bitAt]
    · simp [inside]

theorem bitAt_update (fits : slot.Fits) (size : region.length = slot.byteCount)
    (same : bytes.length = region.length) (index : Nat) :
    Bytes.bitAt (slot.update region bytes) index =
      if slot.startBit ≤ index ∧ index < slot.startBit + slot.bitCount then
        Bytes.bitAt bytes (index - slot.startBit)
      else Bytes.bitAt region index := by
  cases bits : slot.bits with
  | none =>
    simp only [update, bits, bitCount, startBit, Option.map_none, Option.getD_none, Nat.zero_add,
      Nat.zero_le, true_and, Nat.sub_zero]
    split
    · rfl
    · rw [Bytes.bitAt_of_le (by omega), Bytes.bitAt_of_le (by omega)]
  | some range =>
    have bound := fits range bits
    simp only [update, bits, bitCount, startBit, Option.map_some, Option.getD_some,
      Bytes.bitAt_ofNat, BitRange.testBit_insert]
    by_cases inside : index < 8 * region.length
    · simp [inside, Bytes.bitAt]
    · rw [Bytes.bitAt_of_le (by omega : 8 * region.length ≤ index)]
      simp [inside, show ¬(range.start ≤ index ∧ index < range.start + range.width) by omega]

end Slot

namespace Value

variable {value updated other : Value} {place : Place} {slot : Slot} {host : Hierarchy}
  {incoming : CType} {region bytes : List UInt8} {events : List ReferenceEvent}

theorem region_eq_ok_iff :
    value.region slot = .ok region ↔
      slot.type.isSized = true ∧
        Bytes.slice? value.bytes slot.offset slot.byteCount = some region := by
  cases layout : slot.type.layout? with
  | none => simp [Value.region, layout, CType.isSized]
  | some known =>
    simp only [Value.region, layout, CType.isSized, Option.isSome_some, true_and, Slot.byteCount,
      Option.map_some, Option.getD_some]
    split
    next found => simp [found]
    next missing => simp [missing]

theorem length_region (found : value.region slot = .ok region) : region.length = slot.byteCount :=
  Bytes.length_slice? (region_eq_ok_iff.mp found).2

theorem bitAt_region (found : value.region slot = .ok region) (index : Nat) :
    Bytes.bitAt region index =
      (decide (index < 8 * slot.byteCount) && Bytes.bitAt value.bytes (8 * slot.offset + index)) :=
  Bytes.bitAt_slice? (region_eq_ok_iff.mp found).2 index

/-- A zeroed value has zero bytes. -/
theorem zeroed_eq_ok {type : CType} (made : zeroed type = .ok value) :
    value.type = type ∧ ∃ count, value.bytes = Bytes.zeros count := by
  unfold zeroed at made
  split at made
  next => contradiction
  next known _ =>
    split at made
    next =>
      cases made
      exact ⟨rfl, known.size, rfl⟩
    next => contradiction

/-- A write that succeeds was admitted, found its region and was given as many bytes. -/
theorem writeSlot_eq_ok (written : value.writeSlot host slot bytes incoming = .ok (updated, events)) :
    slot.type.isCompatible host incoming = true ∧ updated.type = value.type ∧
      ∃ region, value.region slot = .ok region ∧ bytes.length = region.length ∧
        updated.bytes = Bytes.splice value.bytes slot.offset (slot.update region bytes) ∧
        events = slot.writeEvents region bytes := by
  unfold writeSlot at written
  split at written
  next compatible =>
    split at written
    next => contradiction
    next layout known =>
      split at written
      next => contradiction
      next region found =>
        split at written
        next same =>
          cases written
          have sized : slot.type.isSized = true := by simp [CType.isSized, known]
          have count : slot.byteCount = layout.size := by simp [Slot.byteCount, known]
          refine ⟨compatible, rfl, region, region_eq_ok_iff.mpr ⟨sized, count ▸ found⟩, ?_, rfl, rfl⟩
          rw [same, Bytes.length_slice? found]
        next => contradiction
  next => contradiction

/-- A write to a place is a write to the place's slot. -/
theorem write_eq_ok (written : value.write host place bytes incoming = .ok (updated, events)) :
    ∃ slot, value.slot place = .ok slot ∧
      value.writeSlot host slot bytes incoming = .ok (updated, events) := by
  unfold write at written
  cases found : value.slot place with
  | error error =>
    rw [found] at written
    contradiction
  | ok slot =>
    rw [found] at written
    exact ⟨slot, rfl, written⟩

theorem length_bytes_of_type_eq (same : updated.type = value.type) :
    updated.bytes.length = value.bytes.length := by
  have size := updated.size_eq
  rw [same, value.size_eq] at size
  exact (Option.some.inj size).symm

/-- A write changes the bits that its slot covers and no others. -/
theorem bitAt_of_writeSlot (fits : slot.Fits)
    (written : value.writeSlot host slot bytes incoming = .ok (updated, events)) (index : Nat) :
    Bytes.bitAt updated.bytes index =
      if slot.Covers index then Bytes.bitAt bytes (index - slot.firstBit)
      else Bytes.bitAt value.bytes index := by
  obtain ⟨_, _, region, found, same, bytes_eq, _⟩ := writeSlot_eq_ok written
  have size := length_region found
  have inside := Bytes.slice?_bound (region_eq_ok_iff.mp found).2
  have length : (slot.update region bytes).length = slot.byteCount := by
    rw [Slot.length_update same, size]
  have within := fits.end_le
  rw [bytes_eq, Bytes.bitAt_splice (by omega), length, Slot.bitAt_update fits size same,
    bitAt_region found]
  have covers_iff : slot.Covers index ↔ 8 * slot.offset ≤ index ∧
      slot.startBit ≤ index - 8 * slot.offset ∧
        index - 8 * slot.offset < slot.startBit + slot.bitCount := by
    simp only [Slot.Covers, Slot.firstBit]
    omega
  by_cases covered : slot.Covers index
  · obtain ⟨after, start, stop⟩ := covers_iff.mp covered
    rw [if_pos (by omega), if_pos ⟨start, stop⟩, if_pos covered, Nat.sub_sub, Slot.firstBit]
  · rw [if_neg covered]
    by_cases under : 8 * slot.offset ≤ index ∧ index < 8 * (slot.offset + slot.byteCount)
    · have outside : ¬(slot.startBit ≤ index - 8 * slot.offset ∧
          index - 8 * slot.offset < slot.startBit + slot.bitCount) :=
        fun inside => covered (covers_iff.mpr ⟨under.1, inside⟩)
      have back : 8 * slot.offset + (index - 8 * slot.offset) = index := by omega
      have below : index - 8 * slot.offset < 8 * slot.byteCount := by omega
      rw [if_pos under, if_neg outside, back]
      simp [below]
    · rw [if_neg under]

/-- Whether a slot has a region depends on the length of a value only. -/
theorem region_cases (slot : Slot) (length : value.bytes.length = other.bytes.length) :
    (∃ left right, value.region slot = .ok left ∧ other.region slot = .ok right) ∨
      ∃ error, value.region slot = .error error ∧ other.region slot = .error error := by
  unfold region
  cases slot.type.layout? with
  | none => exact .inr ⟨_, rfl, rfl⟩
  | some layout =>
    by_cases inside : slot.offset + layout.size ≤ value.bytes.length
    · have inside' := length ▸ inside
      simp only [Bytes.slice?, if_pos inside, if_pos inside']
      exact .inl ⟨_, _, rfl, rfl⟩
    · have outside' := length ▸ inside
      simp only [Bytes.slice?, if_neg inside, if_neg outside']
      exact .inr ⟨_, rfl, rfl⟩

theorem content_congr {left right : List UInt8} (fits : slot.Fits)
    (first : value.region slot = .ok left) (second : other.region slot = .ok right)
    (same : ∀ index, slot.Covers index →
      Bytes.bitAt value.bytes index = Bytes.bitAt other.bytes index) :
    slot.content left = slot.content right := by
  have leftSize := length_region first
  have rightSize := length_region second
  apply Bytes.ext_bitAt
  · rw [Slot.length_content, Slot.length_content, leftSize, rightSize]
  · intro index
    rw [Slot.bitAt_content fits leftSize, Slot.bitAt_content fits rightSize]
    by_cases inside : index < slot.bitCount
    · rw [bitAt_region first, bitAt_region second, same _ (Slot.covers_of_lt inside)]
    · simp [inside]

/-- A read depends on the length of a value and on the bits that the slot covers. -/
theorem readSlot_congr (fits : slot.Fits) (length : value.bytes.length = other.bytes.length)
    (same : ∀ index, slot.Covers index →
      Bytes.bitAt value.bytes index = Bytes.bitAt other.bytes index)
    (requested : CType) (count : Nat) :
    value.readSlot host slot requested count = other.readSlot host slot requested count := by
  unfold readSlot
  rcases region_cases slot length with ⟨left, right, first, second⟩ | ⟨error, first, second⟩
  · have sizes : left.length = right.length := (length_region first).trans (length_region second).symm
    simp only [first, second, Except.bind, sizes, content_congr fits first second same]
  · rw [first, second]

/-- What a write stores is what a read of the same slot finds, as far as the slot covers it. -/
theorem content_of_writeSlot (fits : slot.Fits)
    (written : value.writeSlot host slot bytes incoming = .ok (updated, events)) :
    ∃ region, updated.region slot = .ok region ∧ bytes.length = region.length ∧
      ∀ index, Bytes.bitAt (slot.content region) index =
        (decide (index < slot.bitCount) && Bytes.bitAt bytes index) := by
  obtain ⟨_, type_eq, old, found, same, _, _⟩ := writeSlot_eq_ok written
  rcases region_cases slot (length_bytes_of_type_eq type_eq) with
    ⟨region, _, first, second⟩ | ⟨error, first, second⟩
  · have size := length_region first
    refine ⟨region, first, by rw [same, length_region found, size], fun index => ?_⟩
    rw [Slot.bitAt_content fits size, bitAt_region first, bitAt_of_writeSlot fits written]
    by_cases inside : index < slot.bitCount
    · have back : 8 * slot.offset + (slot.startBit + index) - slot.firstBit = index := by
        simp only [Slot.firstBit]
        omega
      have below : slot.startBit + index < 8 * slot.byteCount :=
        Nat.lt_of_lt_of_le (Nat.add_lt_add_left inside _) fits.end_le
      rw [if_pos (Slot.covers_of_lt inside), back]
      simp [below]
    · simp [inside]
  · rw [found] at second
    contradiction

/-- An ordinary slot has the bytes that were written to it. -/
theorem region_of_writeSlot (ordinary : slot.bits = none)
    (written : value.writeSlot host slot bytes incoming = .ok (updated, events)) :
    updated.region slot = .ok bytes := by
  obtain ⟨region, isRegion, length, content⟩ :=
    content_of_writeSlot (Slot.fits_of_bits_eq_none ordinary) written
  have bitCount : slot.bitCount = 8 * bytes.length := by
    rw [length, length_region isRegion]
    simp [Slot.bitCount, ordinary]
  have same : region = bytes := by
    apply Bytes.ext_bitAt length.symm
    intro index
    have bit := content index
    simp only [Slot.content, ordinary] at bit
    rw [bit, bitCount]
    by_cases inside : index < 8 * bytes.length
    · simp [inside]
    · rw [Bytes.bitAt_of_le (by omega), Bool.and_false]
  rw [isRegion, same]

/-- An ordinary slot that has no bit in common with the slot of a write keeps its bytes. -/
theorem region_of_writeSlot_of_disjoint {spared : Slot} (fits : slot.Fits)
    (ordinary : spared.bits = none) (disjoint : ∀ index, slot.Covers index → ¬spared.Covers index)
    (written : value.writeSlot host slot bytes incoming = .ok (updated, events)) :
    updated.region spared = value.region spared := by
  obtain ⟨_, type_eq, _⟩ := writeSlot_eq_ok written
  rcases region_cases spared (length_bytes_of_type_eq type_eq) with ⟨left, right, first, second⟩ |
    ⟨error, first, second⟩
  · have same : spared.content left = spared.content right := by
      refine content_congr (Slot.fits_of_bits_eq_none ordinary) first second fun index covered => ?_
      rw [bitAt_of_writeSlot fits written, if_neg fun written => disjoint index written covered]
    simpa only [Slot.content, ordinary, first, second, Except.ok.injEq] using same
  · rw [first, second]

end Value

end ForeignCall
