import ForeignCall.Proofs.Layout.Soundness
import ForeignCall.Proofs.Value.Slot

/-! # Places

A place names a slot of a value: all of it, an element, or a field. A name of a field stands for the
index of the first field of that name (`Value.slot_field`). In a structure or an array, slots of
different indices have no bit in common (`Value.slots_disjoint`), which follows from the layout.
-/

namespace ForeignCall

namespace CType

/-- The index of the element or the field that a place names. -/
def placeIndex? (type : CType) : Place → Option Nat
  | .whole => none
  | .index index => some index
  | .field name => type.unqualified.indexOf? name

end CType

namespace Value

variable {value updated : Value} {place other : Place} {slot : Slot} {shape : Shape} {field : Field}

/-- The slot of a place depends on the type of a value only. -/
theorem slot_congr (same : updated.type = value.type) (place : Place) :
    updated.slot place = value.slot place := by
  cases place <;> simp only [Value.slot, whole, same]

/-- The unqualified type of a value has a layout, whose size is that of the value. -/
theorem exists_layout (value : Value) :
    ∃ layout, value.type.unqualified.layout? = some layout ∧ value.bytes.length = layout.size := by
  obtain ⟨layout, known, size⟩ := Option.map_eq_some_iff.mp value.size_eq
  exact ⟨layout, by rw [CType.layout?_unqualified, known], size.symm⟩

/-- A slot of a field has the field's type and covers the field's bits. -/
theorem fieldSlot_eq_ok (found : fieldSlot shape field = .ok slot) :
    field.offset? = some slot.offset ∧ slot.type = field.type ∧
      slot.bits = field.width?.map fun width => ⟨field.bit?.getD 0, width⟩ := by
  unfold fieldSlot at found
  split at found
  next => contradiction
  next offset known =>
    cases found
    exact ⟨known, rfl, rfl⟩

/-- A place that has a slot names the whole value, an element of an array, or a field. -/
theorem slot_cases (found : value.slot place = .ok slot) :
    (place = .whole ∧ slot = value.whole) ∨
    (∃ count element index offset, value.type.unqualified = .array count element ∧
      place = .index index ∧ index < count ∧ element.elementOffset? index = some offset ∧
      slot = ⟨offset, element, element.ownedSlots, none⟩) ∨
    (∃ shape name members index field, value.type.unqualified = .aggregate shape name members ∧
      value.type.placeIndex? place = some index ∧
      (placedFields shape members)[index]? = some field ∧ fieldSlot shape field = .ok slot) := by
  cases place with
  | whole =>
    cases found
    exact .inl ⟨rfl, rfl⟩
  | index index =>
    apply Or.inr
    simp only [Value.slot] at found
    split at found
    next count element kind =>
      unfold elementSlot at found
      split at found
      next inside =>
        split at found
        next offset known =>
          cases found
          exact .inl ⟨count, element, index, offset, kind, rfl, inside, known, rfl⟩
        next => contradiction
      next => contradiction
    next shape name members kind =>
      split at found
      next field known =>
        exact .inr ⟨shape, name, members, index, field, kind, rfl, known, found⟩
      next => contradiction
    next => contradiction
    next => contradiction
  | field label =>
    apply Or.inr
    apply Or.inr
    simp only [Value.slot] at found
    split at found
    next => contradiction
    next shape name members kind =>
      split at found
      next field known =>
        simp only [CType.fieldNamed?, List.find?_eq_bind_findIdx?_getElem?] at known
        obtain ⟨index, first, present⟩ := Option.bind_eq_some_iff.mp known
        refine ⟨shape, name, members, index, field, kind, ?_, present, found⟩
        simp only [CType.placeIndex?, CType.indexOf?, kind]
        exact first
      next => contradiction
    next => contradiction
    next => contradiction

/-- A slot with a range of bits is that of a bitfield. -/
theorem slot_bits {range : BitRange} (found : value.slot place = .ok slot)
    (bits : slot.bits = some range) :
    ∃ shape name members field, value.type.unqualified = .aggregate shape name members ∧
      field ∈ placedFields shape members ∧ fieldSlot shape field = .ok slot ∧
      field.width? = some range.width ∧ range.start = field.bit?.getD 0 := by
  rcases slot_cases found with ⟨_, rfl⟩ | ⟨_, _, _, _, _, _, _, _, rfl⟩ |
    ⟨shape, name, members, index, field, kind, _, present, isSlot⟩
  · contradiction
  · contradiction
  · obtain ⟨_, _, bits_eq⟩ := fieldSlot_eq_ok isSlot
    rw [bits_eq] at bits
    obtain ⟨width, isBits, rfl⟩ := Option.map_eq_some_iff.mp bits
    exact ⟨shape, name, members, field, kind, List.mem_of_getElem? present, isSlot, isBits, rfl⟩

/-- A field's name addresses the first field of that name. -/
theorem slot_field {label : String} {index : Nat}
    (first : value.type.unqualified.indexOf? label = some index) :
    value.slot (.field label) = value.slot (.index index) := by
  simp only [Value.slot]
  cases kind : value.type.unqualified with
  | aggregate shape name members =>
    rw [kind, CType.indexOf?] at first
    have same : (CType.aggregate shape name members).fieldNamed? label =
        (CType.aggregate shape name members).fieldAt? index := by
      rw [CType.fieldNamed?, CType.fieldAt?, List.find?_eq_bind_findIdx?_getElem?, first]
      rfl
    obtain ⟨inside, _⟩ := List.findIdx?_eq_some_iff_getElem.mp first
    obtain ⟨field, present⟩ : ∃ field, (CType.aggregate shape name members).fieldAt? index = some field :=
      ⟨_, List.getElem?_eq_getElem inside⟩
    simp only [same, present]
  | _ => simp [kind, CType.indexOf?, CType.fields, CType.fields?] at first

/-- The fields of a structure value are well placed in its bytes. -/
theorem wellPlaced_fields {name : Option String} {members : List Member}
    (kind : value.type.unqualified = .aggregate .struct name members) :
    WellPlaced (placedFields .struct members) value.bytes.length := by
  obtain ⟨layout, known, size⟩ := value.exists_layout
  rw [kind] at known
  rw [size]
  exact wellPlaced_placedFields known

/-- The slot of a structure's field that is no bitfield. -/
theorem slot_of_field {name : Option String} {members : List Member} {index offset : Nat}
    (kind : value.type.unqualified = .aggregate .struct name members)
    (isField : (placedFields .struct members)[index]? = some field)
    (ordinary : field.width? = none) (offset_eq : field.offset? = some offset) :
    value.slot (.index index) = .ok ⟨offset, field.type, field.ownedSlots, none⟩ := by
  have atIndex : (CType.aggregate .struct name members).fieldAt? index = some field := isField
  simp only [Value.slot, kind, atIndex, fieldSlot, offset_eq, ordinary, Option.map_none]

/-- A slot of a structure's field covers the bits of the field. -/
theorem covers_fieldSlot {size : Nat} (wellPlaced : ∃ offset, field.PlacedAt offset size)
    (found : fieldSlot .struct field = .ok slot) :
    slot.firstBit = field.firstBit ∧ slot.bitCount = field.bitCount := by
  obtain ⟨offset_eq, type_eq, bits_eq⟩ := fieldSlot_eq_ok found
  obtain ⟨offset, placed⟩ := wellPlaced
  cases isBits : field.width? with
  | none =>
    have bit := (placed.aligned isBits).1
    simp [Slot.firstBit, Slot.startBit, Slot.bitCount, Slot.byteCount, Field.firstBit,
      Field.bitCount, Field.byteCount, offset_eq, type_eq, bits_eq, isBits, bit]
  | some width =>
    simp [Slot.firstBit, Slot.startBit, Slot.bitCount, Field.firstBit, Field.bitCount, offset_eq,
      bits_eq, isBits]

/-- The slot of a place lies inside its storage unit, if it is a bitfield. -/
theorem slot_fits (found : value.slot place = .ok slot) : slot.Fits := by
  rintro range bits
  obtain ⟨shape, name, members, field, kind, member, isSlot, isBits, start⟩ := slot_bits found bits
  obtain ⟨_, type_eq, _⟩ := fieldSlot_eq_ok isSlot
  have bytes : slot.byteCount = field.byteCount := by
    rw [Slot.byteCount, Field.byteCount, type_eq]
  rw [bytes, start]
  cases shape with
  | struct =>
    obtain ⟨_, placed⟩ := (wellPlaced_fields kind).placed field member
    obtain ⟨_, _, bit, bit_eq, inside⟩ := placed.inUnit range.width isBits
    rwa [bit_eq]
  | union =>
    obtain ⟨layout, known, _⟩ := value.exists_layout
    rw [kind] at known
    obtain ⟨bit_eq, inside⟩ := union_bitfield_fits known member isBits
    rw [bit_eq, Option.getD_some]
    omega

theorem elementOffset?_eq {element : CType} {index offset : Nat}
    (known : element.elementOffset? index = some offset) :
    ∃ layout, element.layout? = some layout ∧ offset = layout.size * index := by
  obtain ⟨layout, found, fits⟩ := Option.bind_eq_some_iff.mp known
  obtain ⟨_, rfl⟩ := fits?_eq_some_iff.mp fits
  exact ⟨layout, found, rfl⟩

/-- In a structure or an array, the slot of a smaller index ends before that of a larger one. -/
theorem slots_ordered {first second : Nat} {left right : Slot}
    (notUnion : ∀ name members, value.type.unqualified ≠ .aggregate .union name members)
    (leftIndex : value.type.placeIndex? place = some first) (leftFound : value.slot place = .ok left)
    (rightIndex : value.type.placeIndex? other = some second)
    (rightFound : value.slot other = .ok right) (less : first < second) :
    left.firstBit + left.bitCount ≤ right.firstBit := by
  rcases slot_cases leftFound with ⟨rfl, _⟩ | ⟨_, element, _, offset, kind, rfl, _, known, rfl⟩ |
    ⟨shape, name, members, _, field, kind, isFirst, present, isSlot⟩
  · contradiction
  · rcases slot_cases rightFound with ⟨rfl, _⟩ | ⟨_, _, _, after, kind', rfl, _, known', rfl⟩ |
      ⟨_, _, _, _, _, kind', _, _, _⟩
    · contradiction
    · cases kind.symm.trans kind'
      cases leftIndex
      cases rightIndex
      obtain ⟨layout, layout_eq, rfl⟩ := elementOffset?_eq known
      obtain ⟨_, layout_eq', rfl⟩ := elementOffset?_eq known'
      cases layout_eq.symm.trans layout_eq'
      have before := stride_end_le less (Nat.le_refl layout.size)
      simp only [Slot.firstBit, Slot.startBit, Slot.bitCount, Slot.byteCount, layout_eq,
        Option.map_none, Option.getD_none, Option.map_some, Option.getD_some]
      omega
    · cases kind.symm.trans kind'
  · rcases slot_cases rightFound with ⟨rfl, _⟩ | ⟨_, _, _, _, kind', _⟩ |
      ⟨_, _, _, _, field', kind', isSecond, present', isSlot'⟩
    · contradiction
    · cases kind.symm.trans kind'
    · cases kind.symm.trans kind'
      cases leftIndex.symm.trans isFirst
      cases rightIndex.symm.trans isSecond
      cases shape with
      | union => exact (notUnion name members kind).elim
      | struct =>
        have wellPlaced := wellPlaced_fields kind
        have ordered := wellPlaced.before less present present'
        obtain ⟨leftStart, leftCount⟩ :=
          covers_fieldSlot (wellPlaced.placed field (List.mem_of_getElem? present)) isSlot
        obtain ⟨rightStart, _⟩ :=
          covers_fieldSlot (wellPlaced.placed field' (List.mem_of_getElem? present')) isSlot'
        rwa [leftStart, leftCount, rightStart]

/-- The slots of two indices of a structure or an array have no bit in common. -/
theorem slots_disjoint {first second : Nat} {left right : Slot}
    (notUnion : ∀ name members, value.type.unqualified ≠ .aggregate .union name members)
    (leftIndex : value.type.placeIndex? place = some first) (leftFound : value.slot place = .ok left)
    (rightIndex : value.type.placeIndex? other = some second)
    (rightFound : value.slot other = .ok right) (different : first ≠ second) (index : Nat)
    (covered : left.Covers index) : ¬right.Covers index := by
  rintro ⟨start, stop⟩
  obtain ⟨start', stop'⟩ := covered
  rcases Nat.lt_or_gt_of_ne different with less | greater
  · have ordered := slots_ordered notUnion leftIndex leftFound rightIndex rightFound less
    omega
  · have ordered := slots_ordered notUnion rightIndex rightFound leftIndex leftFound greater
    omega

end Value

end ForeignCall
