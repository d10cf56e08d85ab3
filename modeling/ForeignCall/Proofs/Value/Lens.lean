import ForeignCall.Proofs.Acceptance.Representation
import ForeignCall.Proofs.Value.Datum
import ForeignCall.Proofs.Value.Place

/-! # Writing and reading a place

A datum that was written at a place is read back from it, cut to the width of a bitfield; in a
structure or an array, nothing else has changed. A write asks whether the place accepts the datum's
type and a read whether the datum's type accepts the place's; for the types of data the first implies
the second (`CType.isCompatible_datumType`).
-/

namespace ForeignCall

namespace CType

variable {host : Hierarchy} {target source : CType}

/-- The types of data carry no `const`. -/
theorem withoutConst_datumType (kind : DatumType) : kind.type.withoutConst = kind.type := by
  cases kind <;> rfl

theorem accepts_datumType_self (kind : DatumType) : accepts host kind.type kind.type = true := by
  cases kind <;>
    simp [DatumType.type, accepts, anyObject, acceptsObject, Hierarchy.admitsClass, pointer,
      withoutConst, unqualified, isVoid]

/-- A slot that receives data of a type gives data of that type. -/
theorem accepts_datumType {kind : DatumType} (accepted : accepts host target kind.type = true) :
    accepts host kind.type target = true := by
  rw [← accepts_withoutConst_left] at accepted
  rw [← accepts_withoutConst_right]
  have notConst := withoutConst_ne_const target
  generalize target.withoutConst = target at accepted notConst
  unfold accepts at accepted
  split at accepted
  next inner _ => exact (notConst _ rfl).elim
  next inner _ _ =>
    cases kind <;> simp only [DatumType.type, withoutConst, anyObject, Bool.false_eq_true] at accepted
    simp [DatumType.type, accepts, pointer, withoutConst, unqualified, isVoid]
  next className protocols =>
    cases kind <;>
      simp only [DatumType.type, withoutConst, anyObject, pointer, acceptsObject,
        Bool.false_eq_true] at accepted
    obtain ⟨rfl, rfl⟩ : className = none ∧ protocols = [] := by
      cases className <;> cases protocols <;>
        simp_all [Hierarchy.admitsClass, Hierarchy.admitsProtocol]
    exact accepts_datumType_self .object
  next signature =>
    cases kind <;>
      simp [DatumType.type, withoutConst, anyObject, pointer, acceptsBlock] at accepted
  next =>
    rw [withoutConst_datumType, decide_eq_true_eq] at accepted
    subst accepted
    exact accepts_datumType_self kind

theorem isCompatible_datumType {kind : DatumType}
    (compatible : target.isCompatible host kind.type = true) :
    kind.type.isCompatible host target = true := by
  simp only [isCompatible, Bool.or_eq_true] at compatible ⊢
  rcases compatible with (accepted | unit) | unit
  · exact .inl (.inl (accepts_datumType accepted))
  · exact .inr unit
  · exact .inl (.inr unit)

/-- Only numbers are exchanged with a bitfield: no other datum fills a storage unit. -/
theorem number_of_isCompatible_bitfield {width : Nat} {kind : DatumType}
    (compatible : (bitfield width).isCompatible host kind.type = true) :
    ∃ scalar, kind = .signed scalar ∨ kind = .unsigned scalar ∨ kind = .floating scalar := by
  have unit_ne : (bitfield width).size ≠ 1 := by
    simp only [size, layout?, storageUnit?]
    split
    · decide
    · split <;> decide
  cases kind with
  | signed scalar => exact ⟨scalar, .inl rfl⟩
  | unsigned scalar => exact ⟨scalar, .inr (.inl rfl)⟩
  | floating scalar => exact ⟨scalar, .inr (.inr rfl)⟩
  | truth =>
    simp [isCompatible, accepts, DatumType.type, withoutConst, isUnitOf, isBitfield, scalar?,
      Scalar.size] at compatible
    exact (unit_ne (of_decide_eq_true compatible.2).symm).elim
  | cString | selector =>
    simp [isCompatible, accepts, DatumType.type, withoutConst, isUnitOf, isBitfield, scalar?,
      Scalar.isInteger, Scalar.isPointerLike] at compatible
  | _ =>
    simp [isCompatible, accepts, DatumType.type, withoutConst, isUnitOf, isBitfield, scalar?,
      anyObject, pointer] at compatible

end CType

namespace DatumType

/-- The low bits of a number's bytes are those of the number. -/
theorem decode_lowBits {kind : DatumType} {datum : Datum} {bytes : List UInt8} {width : Nat}
    {scalar : Scalar} (number : kind = .signed scalar ∨ kind = .unsigned scalar ∨ kind = .floating scalar)
    (encoded : kind.encode? datum = some bytes) (admitted : kind.Admits datum)
    (fitting : width ≤ 8 * kind.size) :
    kind.decode (Bytes.ofNat kind.size (Bytes.toNat bytes % 2 ^ width)) =
      kind.truncate width datum := by
  rcases number with rfl | rfl | rfl
  · cases datum <;> simp only [encode?, Option.some.injEq, reduceCtorEq] at encoded
    subst encoded
    rw [truncate, Bytes.toNat_ofInt_mod (show width ≤ 8 * scalar.size from fitting)]
  · cases datum <;> simp only [encode?, Option.some.injEq, reduceCtorEq] at encoded
    subst encoded
    rw [truncate, Bytes.toNat_ofInt_mod (show width ≤ 8 * scalar.size from fitting)]
  · cases datum <;> simp only [encode?, Option.some.injEq, reduceCtorEq] at encoded
    subst encoded
    next bits =>
      have small : bits % 2 ^ width < 256 ^ scalar.size :=
        Nat.lt_of_le_of_lt (Nat.mod_le _ _) admitted
      rw [truncate, decode, Bytes.toNat_ofNat, Bytes.toNat_ofNat, Nat.mod_eq_of_lt admitted, size,
        Nat.mod_eq_of_lt small]

end DatumType

/-- What a datum reads as that was written to a slot: a bitfield keeps the low bits. -/
def Slot.kept (slot : Slot) (kind : DatumType) (datum : Datum) : Datum :=
  match slot.bits with
  | some range => kind.truncate range.width datum
  | none => datum

namespace Value

variable {host : Hierarchy} {value updated : Value} {place other : Place} {kind : DatumType}
  {datum : Datum} {bytes : List UInt8} {events : List ReferenceEvent}

/-- The slot of a bitfield has a bitfield's type. -/
theorem type_of_bits {slot : Slot} {range : BitRange} (found : value.slot place = .ok slot)
    (bits : slot.bits = some range) : slot.type = .bitfield range.width := by
  obtain ⟨_, _, _, field, _, _, isSlot, isBits, _⟩ := slot_bits found bits
  obtain ⟨_, type_eq, _⟩ := fieldSlot_eq_ok isSlot
  rw [type_eq, Field.type_of_width isBits]

/-- Data written to a place are read back from it. -/
theorem get_of_set {slot : Slot} (encoded : kind.encode? datum = some bytes) (admitted : kind.Admits datum)
    (found : value.slot place = .ok slot)
    (written : value.writeSlot host slot bytes kind.type = .ok (updated, events)) :
    updated.get host place kind = .ok (slot.kept kind datum) := by
  have fits := slot_fits found
  obtain ⟨compatible, type_eq, _⟩ := writeSlot_eq_ok written
  obtain ⟨region, isRegion, length, content⟩ := content_of_writeSlot fits written
  have size := DatumType.length_encode? encoded
  have count : kind.size = region.length := size.symm.trans length
  simp only [get, read, slot_congr type_eq, found, Except.bind, readSlot, isRegion,
    CType.isCompatible_datumType compatible, if_pos count, ↓reduceIte]
  have bitCount : slot.bitCount ≤ 8 * bytes.length := by
    have within := fits.end_le
    rw [length, length_region isRegion]
    omega
  cases bits : slot.bits with
  | none =>
    have stored := region_of_writeSlot bits written
    rw [isRegion, Except.ok.injEq] at stored
    have same : slot.content region = bytes := by rw [Slot.content, bits, stored]
    rw [same, if_pos (DatumType.acceptsBytes_encode? encoded),
      DatumType.decode_encode? encoded admitted, Slot.kept, bits]
  | some range =>
    have width : slot.bitCount = range.width := by simp [Slot.bitCount, bits]
    have same : slot.content region = Bytes.ofNat kind.size (Bytes.toNat bytes % 2 ^ range.width) := by
      apply Bytes.ext_bitAt
      · rw [Slot.length_content, Bytes.length_ofNat, count]
      · intro index
        rw [content, Bytes.bitAt_ofNat, Nat.testBit_mod_two_pow, width]
        by_cases inside : index < range.width
        · simp [inside, show index < 8 * kind.size by omega, Bytes.bitAt]
        · simp [inside]
    rw [type_of_bits found bits] at compatible
    obtain ⟨scalar, number⟩ := CType.number_of_isCompatible_bitfield compatible
    have accepted : kind.acceptsBytes (slot.content region) = true := by
      rcases number with rfl | rfl | rfl <;> rfl
    rw [if_pos accepted, same, DatumType.decode_lowBits number encoded admitted (by omega), Slot.kept,
      bits]

/-- In a structure or an array, what is read at another index does not change. -/
theorem read_of_set {slot : Slot} {first second : Nat}
    (notUnion : ∀ name members, value.type.unqualified ≠ .aggregate .union name members)
    (index : value.type.placeIndex? place = some first) (found : value.slot place = .ok slot)
    (written : value.writeSlot host slot bytes kind.type = .ok (updated, events))
    (otherIndex : value.type.placeIndex? other = some second) (different : second ≠ first)
    (requested : CType) (count : Nat) :
    updated.read host other requested count = value.read host other requested count := by
  have fits := slot_fits found
  obtain ⟨_, type_eq, _⟩ := writeSlot_eq_ok written
  simp only [read, slot_congr type_eq]
  cases otherFound : value.slot other with
  | error error => rfl
  | ok otherSlot =>
    apply readSlot_congr (slot_fits otherFound) (length_bytes_of_type_eq type_eq)
    intro bit covered
    have apart := slots_disjoint notUnion otherIndex otherFound index found different bit covered
    rw [bitAt_of_writeSlot fits written, if_neg apart]

/-- Setting a part of a value and getting it back. The datum is read as it was written, or, from a
bitfield, as its low bits; in a structure or an array every other part reads as before, for every
type and length asked for, and no bit outside the part has changed. A name of a field does what the
index of the first field of that name does. -/
theorem set_get_laws {index : Nat} (encoded : kind.encode? datum = some bytes)
    (admitted : kind.Admits datum) (indexed : value.type.placeIndex? place = some index)
    (written : value.set host place kind bytes = .ok (updated, events)) :
    ∃ slot, value.slot place = .ok slot ∧ value.slot (.index index) = .ok slot ∧
      updated.get host place kind = .ok (slot.kept kind datum) ∧
      ((∀ name members, value.type.unqualified ≠ .aggregate .union name members) →
        (∀ other second, value.type.placeIndex? other = some second → second ≠ index →
          ∀ requested count,
            updated.read host other requested count = value.read host other requested count) ∧
        ∀ bit, ¬slot.Covers bit →
          Bytes.bitAt updated.bytes bit = Bytes.bitAt value.bytes bit) := by
  obtain ⟨slot, found, written⟩ := write_eq_ok written
  have same : value.slot (.index index) = .ok slot := by
    cases place with
    | whole => contradiction
    | index other =>
      cases indexed
      exact found
    | field label => rw [← slot_field indexed, found]
  refine ⟨slot, found, same, get_of_set encoded admitted found written, ?_⟩
  intro notUnion
  constructor
  · intro other second otherIndex different requested count
    exact read_of_set notUnion indexed found written otherIndex different requested count
  · intro bit outside
    rw [bitAt_of_writeSlot (slot_fits found) written, if_neg outside]

/-- Two bitfields in one byte, and a number after them. -/
def packedType : CType :=
  .aggregate .struct none
    [.ofType (some "low") (.bitfield 3), .ofType (some "high") (.bitfield 4),
      .ofType none (.scalar .short)]

/-- A value in which every bit is set. -/
def packed : Value := ⟨packedType, [255, 255, 255, 255], by decide⟩

/-- The value after the second bitfield was set to 37. -/
def repacked : Value := ⟨packedType, [175, 255, 255, 255], by decide⟩

theorem set_get_laws_packed :
    packed.set .flat (.field "high") (.unsigned .unsignedInt) [37, 0, 0, 0] = .ok (repacked, []) ∧
      repacked.get .flat (.field "high") (.unsigned .unsignedInt) = .ok (.integer 5) ∧
      (∀ other second, packedType.placeIndex? other = some second → second ≠ 1 →
        ∀ requested count,
          repacked.read .flat other requested count = packed.read .flat other requested count) ∧
      ∀ bit, ¬(3 ≤ bit ∧ bit < 7) →
        Bytes.bitAt repacked.bytes bit = Bytes.bitAt packed.bytes bit := by
  have encoded : (DatumType.unsigned .unsignedInt).encode? (.integer 37) = some [37, 0, 0, 0] := by
    decide
  have admitted : (DatumType.unsigned .unsignedInt).Admits (.integer 37) :=
    ⟨by decide, by decide⟩
  have indexed : packed.type.placeIndex? (.field "high") = some 1 := by decide
  have written : packed.set .flat (.field "high") (.unsigned .unsignedInt) [37, 0, 0, 0] =
      .ok (repacked, []) := by cbv
  obtain ⟨slot, found, _, back, others⟩ := set_get_laws encoded admitted indexed written
  cases found
  obtain ⟨apart, outside⟩ := others (fun _ _ same => by cases same)
  exact ⟨written, back, apart, outside⟩

end Value

end ForeignCall
