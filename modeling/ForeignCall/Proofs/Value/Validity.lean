import ForeignCall.Proofs.Value.Lens

/-! # Valid data

A truth value is stored as 0 or 1. The bytes of a datum at which truth values lie follow from its type, at
any depth of arrays (`DatumType.truthOffsets`). A read of a single truth value looks at its byte, and a read
of an array at none. So a read refuses exactly the bytes that hold no valid datum if no truth value lies
inside an array, and otherwise it refuses none (`Value.reads_valid_iff_not_hidesTruth`).
-/

namespace ForeignCall

namespace DatumType

/-- The bytes of a datum at which truth values lie. -/
def truthOffsets : DatumType → List Nat
  | truth => [0]
  | array count element =>
    (List.range count).flatMap fun index => element.truthOffsets.map (index * element.size + ·)
  | _ => []

/-- Whether 0 or 1 is stored wherever a datum has a truth value. -/
def holdsTruths (kind : DatumType) (bytes : List UInt8) : Bool :=
  kind.truthOffsets.all fun offset => bytes[offset]? = some 0 || bytes[offset]? = some 1

/-- Whether a truth value lies inside an array. -/
def hidesTruth : DatumType → Bool
  | array count element => !(array count element).truthOffsets.isEmpty
  | _ => false

variable {kind : DatumType} {bytes : List UInt8}

theorem truthOffset_lt_size {offset : Nat} (present : offset ∈ kind.truthOffsets) : offset < kind.size := by
  induction kind generalizing offset with
  | truth =>
    rw [List.mem_singleton.mp present]
    exact Nat.zero_lt_one
  | array count element ih =>
    obtain ⟨index, among, isOffset⟩ := List.mem_flatMap.mp present
    obtain ⟨inner, isInner, rfl⟩ := List.mem_map.mp isOffset
    have before := stride_end_le (List.mem_range.mp among) (ih isInner)
    rw [size, Nat.mul_comm index, Nat.mul_comm count]
    omega
  | _ => contradiction

/-- A single truth value is looked at, and types without one have nothing to look at. -/
theorem acceptsBytes_eq_holdsTruths (shown : kind.hidesTruth = false) (length : bytes.length = kind.size) :
    kind.acceptsBytes bytes = kind.holdsTruths bytes := by
  cases kind with
  | truth =>
    obtain ⟨byte, rfl⟩ := List.length_eq_one_iff.mp length
    simp [acceptsBytes, holdsTruths, truthOffsets]
  | array count element =>
    have nothing : (array count element).truthOffsets = [] := by simpa [hidesTruth] using shown
    rw [holdsTruths, nothing]
    rfl
  | _ => rfl

/-- An array is accepted as it is. -/
theorem acceptsBytes_of_hidesTruth (hidden : kind.hidesTruth = true) : kind.acceptsBytes bytes = true := by
  cases kind with
  | array => rfl
  | _ => contradiction

/-- Bytes that are neither 0 nor 1 hold no truth value. -/
theorem holdsTruths_replicate_two (hidden : kind.hidesTruth = true) :
    kind.holdsTruths (List.replicate kind.size 2) = false := by
  obtain ⟨offset, present⟩ : ∃ offset, offset ∈ kind.truthOffsets := by
    apply List.exists_mem_of_ne_nil
    intro nothing
    cases kind <;> simp_all [hidesTruth]
  rw [holdsTruths, List.all_eq_false]
  refine ⟨offset, present, ?_⟩
  simp [truthOffset_lt_size present]

/-- The size of a datum is that of its type. -/
theorem size_of_layout? {layout : Layout} (known : kind.type.layout? = some layout) :
    layout.size = kind.size := by
  induction kind generalizing layout with
  | array count element ih =>
    simp only [type, CType.layout?] at known
    obtain ⟨single, found, repeated⟩ := Option.bind_eq_some_iff.mp known
    obtain ⟨size, fits, rfl⟩ := Option.map_eq_some_iff.mp repeated
    obtain ⟨_, rfl⟩ := fits?_eq_some_iff.mp fits
    rw [DatumType.size, ih found, Nat.mul_comm]
  | _ =>
    simp only [type, CType.anyObject, CType.pointer, CType.layout?, Option.some.injEq] at known
    subst known
    rfl

end DatumType

namespace Value

variable {host : Hierarchy} {value : Value} {place : Place} {requested : CType} {kind : DatumType}
  {bytes : List UInt8} {length : Nat}

/-- A read gives what the slot of its place holds, if that is as long as was asked for. -/
theorem read_eq_ok (done : value.read host place requested length = .ok bytes) :
    ∃ slot region, value.slot place = .ok slot ∧ value.region slot = .ok region ∧
      length = region.length ∧ bytes = slot.content region := by
  unfold read at done
  cases found : value.slot place with
  | error => simp [found, Except.bind] at done
  | ok slot =>
    simp only [found, Except.bind, readSlot] at done
    split at done
    next =>
      cases isRegion : value.region slot with
      | error => simp [isRegion] at done
      | ok region =>
        simp only [isRegion] at done
        split at done
        next same =>
          cases done
          exact ⟨slot, region, rfl, isRegion, same, rfl⟩
        next => contradiction
    next => contradiction

/-- A read fills the bytes that it was asked for. -/
theorem length_read (done : value.read host place requested length = .ok bytes) : bytes.length = length := by
  obtain ⟨slot, region, _, _, same, rfl⟩ := read_eq_ok done
  rw [Slot.length_content, same]

/-- A value of a datum's type is read as it is. -/
theorem read_whole (type_eq : value.type = kind.type) :
    value.read host .whole kind.type kind.size = .ok value.bytes := by
  obtain ⟨layout, known, size⟩ := Option.map_eq_some_iff.mp value.size_eq
  have count : kind.size = value.bytes.length := by
    rw [← size, DatumType.size_of_layout? (type_eq ▸ known)]
  have compatible : kind.type.isCompatible host value.whole.type = true := by
    simp [CType.isCompatible, whole, type_eq, CType.accepts_datumType_self]
  have isRegion : value.region value.whole = .ok value.bytes := by
    refine region_eq_ok_iff.mpr ⟨by simp [CType.isSized, whole, known], ?_⟩
    simp [Bytes.slice?, Slot.byteCount, whole, known, size]
  have found : value.slot .whole = .ok value.whole := rfl
  simp only [read, found, Except.bind, readSlot, compatible, isRegion, if_pos count, ↓reduceIte]
  rfl

/-- What a read of a datum answers: the datum if 0 or 1 is stored wherever it has a truth value, and else
that the bytes hold none. -/
def ReadsValid (kind : DatumType) : Prop :=
  ∀ (host : Hierarchy) (value : Value) (place : Place),
    value.get host place kind = (value.read host place kind.type kind.size).bind fun bytes =>
      if kind.holdsTruths bytes then .ok (kind.decode bytes) else .error (.invalidBitPattern kind.type)

theorem readsValid_of_shown (shown : kind.hidesTruth = false) : ReadsValid kind := by
  intro host value place
  unfold get
  cases done : value.read host place kind.type kind.size with
  | error => rfl
  | ok bytes =>
    simp only [Except.bind]
    rw [DatumType.acceptsBytes_eq_holdsTruths shown (length_read done)]

theorem get_of_hidesTruth (hidden : kind.hidesTruth = true) :
    value.get host place kind = (value.read host place kind.type kind.size).map kind.decode := by
  unfold get
  cases value.read host place kind.type kind.size with
  | error => rfl
  | ok bytes =>
    simp only [Except.bind, DatumType.acceptsBytes_of_hidesTruth hidden, ↓reduceIte]
    rfl

theorem not_readsValid_of_hidesTruth (sized : kind.type.isSized = true) (hidden : kind.hidesTruth = true) :
    ¬ReadsValid kind := by
  intro valid
  obtain ⟨layout, known⟩ := Option.isSome_iff_exists.mp sized
  have size := DatumType.size_of_layout? known
  let value : Value := ⟨kind.type, List.replicate kind.size 2, by simp [known, size]⟩
  have done : value.read .flat .whole kind.type kind.size = .ok value.bytes := read_whole rfl
  have refused := valid .flat value .whole
  rw [get_of_hidesTruth hidden, done] at refused
  simp only [Except.bind, Except.map, value, DatumType.holdsTruths_replicate_two hidden] at refused
  contradiction

/-- Reads of data of a type answer only valid data exactly if no truth value lies inside an array of the
type: a read of such an array answers whatever bytes there are. -/
theorem reads_valid_iff_not_hidesTruth (kind : DatumType) (sized : kind.type.isSized = true) :
    (ReadsValid kind ↔ kind.hidesTruth = false) ∧
      (kind.hidesTruth = true → ∀ (host : Hierarchy) (value : Value) (place : Place),
        value.get host place kind = (value.read host place kind.type kind.size).map kind.decode) := by
  refine ⟨⟨fun valid => ?_, readsValid_of_shown⟩, fun hidden host value place => get_of_hidesTruth hidden⟩
  rw [← Bool.not_eq_true]
  exact fun hidden => not_readsValid_of_hidesTruth sized hidden valid

/-- Truth values in arrays of arrays are not looked at, and one alone is. -/
theorem reads_valid_iff_not_hidesTruth_nested :
    (DatumType.array 2 (.array 1 .truth)).type.isSized = true ∧
      ¬ReadsValid (.array 2 (.array 1 .truth)) ∧
      DatumType.truth.type.isSized = true ∧ ReadsValid .truth := by
  have nested : (DatumType.array 2 (.array 1 .truth)).type.isSized = true := by decide
  have alone : DatumType.truth.type.isSized = true := by decide
  refine ⟨nested, fun valid => ?_, alone, (reads_valid_iff_not_hidesTruth .truth alone).1.mpr rfl⟩
  exact absurd ((reads_valid_iff_not_hidesTruth _ nested).1.mp valid) (by decide)

/-- Two truth values, of which the second is stored as 2. -/
def doubtful : Value := ⟨.array 2 (.scalar .bool), [0, 2], by decide⟩

/-- The second truth value is refused on its own, and answered in the array. -/
theorem invalid_truth_answered_in_array :
    doubtful.read .flat .whole (.array 2 (.scalar .bool)) 2 = .ok [0, 2] ∧
      (DatumType.array 2 .truth).holdsTruths [0, 2] = false ∧
      doubtful.get .flat .whole (.array 2 .truth) = .ok (.list [.truth false, .truth true]) ∧
      doubtful.get .flat (.index 1) .truth = .error (.invalidBitPattern (.scalar .bool)) := by
  refine ⟨?_, by decide, ?_, ?_⟩
  · cbv
  · cbv
  · cbv

end Value

end ForeignCall
