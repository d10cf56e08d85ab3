import ForeignCall.CType.Field
import ForeignCall.Proofs.Layout.Placement

/-! # Sound layouts

Every type with a layout has a sound one (`CType.isSound_of_layout?`), by induction on the type. With
that, the fields of a structure of known layout are `WellPlaced`: they follow one another bit by bit,
each is aligned as its type asks for, and each lies inside the structure together with its storage
unit.
-/

namespace ForeignCall

namespace Placement

variable {members : List Footprint} {layout : Layout}

theorem isSound_ofStruct (sound : ∀ member ∈ members, member.IsSound)
    (known : (ofStruct members).layout = some layout) : layout.IsSound := by
  obtain ⟨final, ends, size⟩ := Option.bind_eq_some_iff.mp known
  exact (Cursor.layout?_spec (Cursor.placeAll_isValid Cursor.isValid_start sound ends) size).1

theorem joinLayouts?_isAlignment {joined : Layout} (sound : ∀ member ∈ members, member.IsSound)
    (start : IsAlignment joined.alignment) (known : joinLayouts? joined members = some layout) :
    IsAlignment layout.alignment := by
  induction members generalizing joined with
  | nil => cases known; exact start
  | cons member members ih =>
    obtain ⟨single, found, rest⟩ := Option.bind_eq_some_iff.mp known
    have alignment := ((sound member (List.mem_cons_self ..)).layout found).alignment
    exact ih (fun other present => sound other (List.mem_cons_of_mem _ present))
      (start.max alignment) rest

theorem isSome_of_joinLayouts? {joined : Layout} (known : joinLayouts? joined members = some layout) :
    ∀ member ∈ members, member.layout?.isSome := by
  induction members generalizing joined with
  | nil => simp
  | cons member members ih =>
    obtain ⟨single, found, rest⟩ := Option.bind_eq_some_iff.mp known
    intro other present
    rcases List.mem_cons.mp present with rfl | present
    · simp [found]
    · exact ih rest other present

theorem isSound_ofUnion (sound : ∀ member ∈ members, member.IsSound)
    (known : (ofUnion members).layout = some layout) : layout.IsSound := by
  obtain ⟨joined, join, rounded⟩ := Option.bind_eq_some_iff.mp known
  obtain ⟨size, fits, rfl⟩ := Option.map_eq_some_iff.mp rounded
  obtain ⟨_, rfl⟩ := fits?_eq_some_iff.mp fits
  have alignment := joinLayouts?_isAlignment sound Layout.isSound_empty.alignment join
  exact ⟨alignment, dvd_roundUp _ _⟩

theorem isSound_ofShape {shape : Shape} (sound : ∀ member ∈ members, member.IsSound)
    (known : (ofShape shape members).layout = some layout) : layout.IsSound := by
  cases shape with
  | struct => exact isSound_ofStruct sound known
  | union => exact isSound_ofUnion sound known

end Placement

namespace CType

theorem layout?_unqualified (type : CType) : type.unqualified.layout? = type.layout? := by
  fun_induction unqualified type with
  | case1 inner ih => rw [ih, layout?]
  | case2 inner ih => rw [ih, layout?]
  | case3 => rfl

mutual

/-- Every layout that a type has is sound. -/
theorem isSound_of_layout? : (type : CType) → {layout : Layout} → type.layout? = some layout →
    layout.IsSound
  | unknown, _, known | forward _ _, _, known => by simp [layout?] at known
  | void, _, known => by
    cases known
    exact Layout.isSound_empty
  | scalar kind, _, known => by
    cases known
    exact Layout.isSound_scalar kind
  | object _ _, _, known | classRef, _, known | block _, _, known
  | wrapped .pointer _, _, known => by
    simp only [layout?, Option.some.injEq] at known
    subst known
    exact Layout.isSound_pointer
  | wrapped .const inner, _, known | wrapped .atomic inner, _, known =>
    isSound_of_layout? inner (by simpa only [layout?] using known)
  | wrapped .complex inner, _, known => by
    simp only [layout?] at known
    obtain ⟨single, found, repeated⟩ := Option.bind_eq_some_iff.mp known
    exact (isSound_of_layout? inner found).repeated repeated
  | wrapped .vector inner, _, known => by
    simp only [layout?] at known
    obtain ⟨single, _, vector⟩ := Option.bind_eq_some_iff.mp known
    exact Layout.isSound_vector vector
  | bitfield width, _, known => by
    simp only [layout?] at known
    obtain ⟨unit, storage, rfl⟩ := Option.map_eq_some_iff.mp known
    exact Layout.isSound_storageUnit storage
  | array count element, _, known => by
    simp only [layout?] at known
    obtain ⟨single, found, repeated⟩ := Option.bind_eq_some_iff.mp known
    exact (isSound_of_layout? element found).repeated repeated
  | aggregate shape _ members, _, known => by
    simp only [layout?] at known
    exact Placement.isSound_ofShape (isSound_of_footprints members) known

theorem isSound_of_footprints : (members : List Member) →
    ∀ footprint ∈ footprints members, footprint.IsSound
  | [], _, present => by simp [footprints] at present
  | ⟨_, type, _⟩ :: members, footprint, present => by
    simp only [footprints, List.mem_cons] at present
    rcases present with rfl | present
    · exact Footprint.isSound_ofType fun _ known => isSound_of_layout? type known
    · exact isSound_of_footprints members footprint present

end

theorem isSound_footprint (type : CType) : type.footprint.IsSound :=
  Footprint.isSound_ofType fun _ known => isSound_of_layout? type known

theorem size_emptyArray {element : CType} {layout : Layout}
    (known : (array 0 element).layout? = some layout) : layout.size = 0 := by
  simp only [layout?] at known
  obtain ⟨single, _, repeated⟩ := Option.bind_eq_some_iff.mp known
  obtain ⟨size, fits, rfl⟩ := Option.map_eq_some_iff.mp repeated
  obtain ⟨_, rfl⟩ := fits?_eq_some_iff.mp fits
  rfl

end CType

/-! ## Fields of an aggregate -/

namespace Field

/-- The first bit of a field, counted from the start of its aggregate. -/
def firstBit (field : Field) : Nat := 8 * field.offset?.getD 0 + field.bit?.getD 0

/-- The bits of a field: the width of a bitfield, and all bytes of any other. -/
def bitCount (field : Field) : Nat :=
  match field.width? with
  | some width => width
  | none => 8 * field.byteCount

/-- A field at an offset of a structure of some size. The bytes of a bitfield are its storage unit,
which counts unless the bitfield is empty. -/
structure PlacedAt (field : Field) (offset size : Nat) : Prop where
  offset_eq : field.offset? = some offset
  isSized : field.type.isSized = true
  aligned : field.width? = none → field.bit? = none ∧ field.type.alignment ∣ offset
  inUnit : ∀ width, field.width? = some width →
    storageUnit? width = some field.byteCount ∧ field.byteCount ∣ offset ∧
      ∃ bit, field.bit? = some bit ∧ bit + width ≤ 8 * field.byteCount
  contained : field.width? ≠ some 0 → offset + field.byteCount ≤ size

/-- The bits of an ordinary field are its bytes. -/
theorem PlacedAt.bits_of_ordinary {field : Field} {offset size : Nat} (placed : field.PlacedAt offset size)
    (ordinary : field.width? = none) :
    field.firstBit = 8 * offset ∧ field.bitCount = 8 * field.byteCount := by
  simp [firstBit, bitCount, ordinary, placed.offset_eq, (placed.aligned ordinary).1]

end Field

/-- The fields of a structure of some size: each has its place, and none shares a bit with another
or comes before an earlier one. -/
structure WellPlaced (fields : List Field) (size : Nat) : Prop where
  placed : ∀ field ∈ fields, ∃ offset, field.PlacedAt offset size
  ordered : fields.Pairwise fun earlier later =>
    earlier.firstBit + earlier.bitCount ≤ later.firstBit

/-- A field ends before any later one begins. -/
theorem WellPlaced.before {fields : List Field} {size first second : Nat} {earlier later : Field}
    (wellPlaced : WellPlaced fields size) (less : first < second)
    (isFirst : fields[first]? = some earlier) (isSecond : fields[second]? = some later) :
    earlier.firstBit + earlier.bitCount ≤ later.firstBit := by
  obtain ⟨inside, first_eq⟩ := List.getElem?_eq_some_iff.mp isFirst
  obtain ⟨inside', second_eq⟩ := List.getElem?_eq_some_iff.mp isSecond
  have ordered := List.pairwise_iff_getElem.mp wellPlaced.ordered first second inside inside' less
  rwa [first_eq, second_eq] at ordered

/-- Of two fields, one ends before the other begins. -/
theorem WellPlaced.apart {fields : List Field} {size first second : Nat} {left right : Field}
    (wellPlaced : WellPlaced fields size) (different : first ≠ second)
    (isFirst : fields[first]? = some left) (isSecond : fields[second]? = some right) :
    left.firstBit + left.bitCount ≤ right.firstBit ∨ right.firstBit + right.bitCount ≤ left.firstBit := by
  rcases Nat.lt_or_gt_of_ne different with less | greater
  · exact .inl (wellPlaced.before less isFirst isSecond)
  · exact .inr (wellPlaced.before greater isSecond isFirst)

/-- Ordinary fields lie apart byte by byte. -/
theorem WellPlaced.stop_le {fields : List Field} {size first second : Nat} {earlier later : Field}
    (wellPlaced : WellPlaced fields size) (less : first < second)
    (isFirst : fields[first]? = some earlier) (isSecond : fields[second]? = some later)
    (ordinary : earlier.width? = none) (ordinary' : later.width? = none) :
    earlier.offset?.getD 0 + earlier.byteCount ≤ later.offset?.getD 0 := by
  obtain ⟨_, placed⟩ := wellPlaced.placed earlier (List.mem_of_getElem? isFirst)
  obtain ⟨_, placed'⟩ := wellPlaced.placed later (List.mem_of_getElem? isSecond)
  have ordered := wellPlaced.before less isFirst isSecond
  simp only [Field.firstBit, Field.bitCount, ordinary, (placed.aligned ordinary).1,
    (placed'.aligned ordinary').1, Option.getD_none] at ordered
  omega

namespace Field

variable {field : Field} {cursor next : Cursor}

/-- A field whose position is known and lies before a cursor. -/
def SettledAt (field : Field) (cursor : Cursor) : Prop :=
  ∃ position, field.position = some position ∧
    field.type.footprint.SettledAt position cursor

theorem type_of_width {width : Nat} (isBits : field.width? = some width) :
    field.type = .bitfield width := by
  unfold width? at isBits
  split at isBits
  next same =>
    cases isBits
    exact same
  next => contradiction

theorem firstBit_of_position {position : Position} (known : field.position = some position) :
    field.firstBit = position.firstBit := by
  simp [firstBit, Position.firstBit, offset?, bit?, known]

theorem SettledAt.mono (settled : field.SettledAt cursor) (later : cursor.Precedes next) :
    field.SettledAt next := by
  obtain ⟨position, known, before⟩ := settled
  exact ⟨position, known, before.mono later⟩

/-- The footprint of a field, with what it says about the field's type. -/
theorem footprint_cases (field : Field) :
    (∃ width, field.width? = some width ∧ field.type.footprint = .bits width ∧
      field.type.layout? = (storageUnit? width).map fun unit => ⟨unit, unit⟩) ∨
    (field.width? = none ∧ ∃ layout, field.type.layout? = some layout ∧
      (field.type.footprint = .bytes layout ∨
        field.type.footprint = .emptyArray layout.alignment ∧ layout.size = 0)) ∨
    (field.width? = none ∧ field.type.footprint = .unsized) := by
  rcases field with ⟨⟨name, type, retention⟩, position⟩
  by_cases isBits : ∃ width, type = .bitfield width
  · obtain ⟨width, rfl⟩ := isBits
    exact .inl ⟨width, rfl, rfl, by rw [CType.layout?]⟩
  have ordinary : width? ⟨⟨name, type, retention⟩, position⟩ = none := by
    unfold width?
    split
    next width same => exact (isBits ⟨width, same⟩).elim
    next => rfl
  cases known : type.layout? with
  | none =>
    refine .inr (.inr ⟨ordinary, ?_⟩)
    simp only [CType.footprint, known]
    cases type <;> simp_all [Footprint.ofType]
  | some layout =>
    refine .inr (.inl ⟨ordinary, layout, rfl, ?_⟩)
    simp only [CType.footprint, known]
    by_cases isEmpty : ∃ element, type = .array 0 element
    · obtain ⟨element, rfl⟩ := isEmpty
      exact .inr ⟨rfl, CType.size_emptyArray known⟩
    · apply Or.inl
      unfold Footprint.ofType
      split
      next => exact (isBits ⟨_, rfl⟩).elim
      next absent => cases absent
      next => exact (isEmpty ⟨_, rfl⟩).elim
      next same => cases same; rfl

/-- A field that takes bytes of a layout is no bitfield, and is of that layout. -/
theorem widthless_of_footprint {layout : Layout} (ordinary : field.type.footprint = .bytes layout) :
    field.width? = none ∧ field.type.layout? = some layout := by
  rcases field.footprint_cases with ⟨_, _, footprint, _⟩ |
    ⟨widthless, _, layout_eq, footprint | ⟨footprint, _⟩⟩ | ⟨_, footprint⟩
  · cases ordinary.symm.trans footprint
  · cases ordinary.symm.trans footprint
    exact ⟨widthless, layout_eq⟩
  · cases ordinary.symm.trans footprint
  · cases ordinary.symm.trans footprint

theorem SettledAt.end_le (settled : field.SettledAt cursor) :
    field.firstBit + field.bitCount ≤ cursor.freeBit := by
  obtain ⟨position, known, before⟩ := settled
  have ends := before.end_le
  rw [firstBit_of_position known]
  rcases field.footprint_cases with ⟨width, isBits, footprint, _⟩ |
    ⟨ordinary, layout, layout_eq, footprint | ⟨footprint, empty⟩⟩ | ⟨_, footprint⟩
  · simpa only [bitCount, isBits, footprint, Footprint.bitCount] using ends
  · simpa only [bitCount, ordinary, byteCount, layout_eq, footprint, Footprint.bitCount,
      Option.map_some, Option.getD_some] using ends
  · simpa only [bitCount, ordinary, byteCount, layout_eq, footprint, Footprint.bitCount,
      Option.map_some, Option.getD_some, empty, Nat.mul_zero] using ends
  · rw [footprint] at before
    exact before.elim

/-- A field that lies before the end of a structure has its place there. A storage unit ends before
the structure does, because the size of the structure is a multiple of the unit. -/
theorem SettledAt.placedAt {layout : Layout} (settled : field.SettledAt cursor)
    (valid : cursor.IsValid) (known : cursor.layout? = some layout) :
    ∃ offset, field.PlacedAt offset layout.size := by
  obtain ⟨position, position_eq, before⟩ := settled
  obtain ⟨sound, alignment_eq, size_ge⟩ := Cursor.layout?_spec valid known
  have offset_eq : field.offset? = some position.offset := by simp [offset?, position_eq]
  refine ⟨position.offset, ?_⟩
  rcases field.footprint_cases with ⟨width, isBits, footprint, layout_eq⟩ |
    ⟨ordinary, inner, layout_eq, footprint | ⟨footprint, empty⟩⟩ | ⟨_, footprint⟩
  · rw [footprint] at before
    obtain ⟨start, bit, ends, inUnit⟩ := before
    obtain ⟨unit, storage, aligned, inside, unit_le⟩ := inUnit
    have bit_eq : field.bit? = some start := by simp [bit?, position_eq, bit]
    have byteCount_eq : field.byteCount = unit := by simp [byteCount, layout_eq, storage]
    have unitAlignment := (Layout.isSound_storageUnit storage).alignment
    refine ⟨offset_eq, by simp [CType.isSized, layout_eq, storage], ?_, ?_, fun nonzero => ?_⟩
    · simp [isBits]
    · rintro other same
      rw [isBits] at same
      cases same
      rw [byteCount_eq]
      exact ⟨storage, aligned, start, bit_eq, inside⟩
    · have positive : 0 < width := by
        rcases Nat.eq_zero_or_pos width with rfl | positive
        · exact absurd isBits nonzero
        · exact positive
      have unit_dvd : unit ∣ layout.size := by
        apply Nat.dvd_trans (unitAlignment.dvd_of_le valid.alignment (unit_le positive))
        rw [← alignment_eq]
        exact sound.dvd_size
      rw [byteCount_eq]
      exact add_le_of_dvd_of_lt aligned unit_dvd (by omega)
  · rw [footprint] at before
    obtain ⟨bit, aligned, ends⟩ := before
    refine ⟨offset_eq, by simp [CType.isSized, layout_eq], fun _ => ⟨?_, ?_⟩, ?_, fun _ => ?_⟩
    · simp [bit?, position_eq, bit]
    · simpa [CType.alignment, layout_eq] using aligned
    · simp [ordinary]
    · simp only [byteCount, layout_eq, Option.map_some, Option.getD_some]
      omega
  · rw [footprint] at before
    obtain ⟨bit, aligned, ends⟩ := before
    refine ⟨offset_eq, by simp [CType.isSized, layout_eq], fun _ => ⟨?_, ?_⟩, ?_, fun _ => ?_⟩
    · simp [bit?, position_eq, bit]
    · simpa [CType.alignment, layout_eq] using aligned
    · simp [ordinary]
    · simp only [byteCount, layout_eq, Option.map_some, Option.getD_some, empty]
      omega
  · rw [footprint] at before
    exact before.elim

end Field

namespace Cursor

variable {cursor next final : Cursor}

def fieldsFrom (cursor : Option Cursor) (members : List Member) : List Field :=
  members.zipWith (fun member position => { member with position })
    (placeAll cursor (CType.footprints members)).1

/-- Fields placed one after the other between two cursors. -/
structure Lays (cursor : Cursor) (fields : List Field) (final : Cursor) : Prop where
  settled : ∀ field ∈ fields, field.SettledAt final
  start_le : ∀ field ∈ fields, cursor.freeBit ≤ field.firstBit
  ordered : fields.Pairwise fun earlier later =>
    earlier.firstBit + earlier.bitCount ≤ later.firstBit
  precedes : cursor.Precedes final
  valid : final.IsValid

/-- A field and those after it: the first ends where the cursor stands from which the others start. -/
theorem Lays.cons {field : Field} {fields : List Field} (settled : field.SettledAt next)
    (start_le : cursor.freeBit ≤ field.firstBit) (step : cursor.Precedes next)
    (rest : next.Lays fields final) : cursor.Lays (field :: fields) final where
  settled := by
    intro other present
    rcases List.mem_cons.mp present with rfl | present
    · exact settled.mono rest.precedes
    · exact rest.settled other present
  start_le := by
    intro other present
    rcases List.mem_cons.mp present with rfl | present
    · exact start_le
    · exact Nat.le_trans step.freeBit_le (rest.start_le other present)
  ordered := by
    refine List.pairwise_cons.mpr ⟨fun later present => ?_, rest.ordered⟩
    exact Nat.le_trans settled.end_le (rest.start_le later present)
  precedes := step.trans rest.precedes
  valid := rest.valid

/-- The first field lies where one step from the cursor puts it, and the others are placed from the
next cursor on. -/
theorem fieldsFrom_cons {member : Member} {members : List Member} (valid : cursor.IsValid)
    (ends : (placeAll (some cursor) (CType.footprints (member :: members))).2 = some final) :
    ∃ position next,
      cursor.place (CType.footprints members).isEmpty member.type.footprint =
        (some position, some next) ∧
      fieldsFrom (some cursor) (member :: members) =
        ⟨member, some position⟩ :: fieldsFrom (some next) members ∧
      (placeAll (some next) (CType.footprints members)).2 = some final := by
  have footprints_cons : CType.footprints (member :: members) =
      member.type.footprint :: CType.footprints members := by
    simp [CType.footprints_eq_map]
  rw [footprints_cons] at ends
  obtain ⟨found, next, step, positions, rest⟩ := placeAll_cons ends
  obtain ⟨position, rfl, _⟩ := place_spec valid (CType.isSound_footprint _) step
  refine ⟨position, next, step, ?_, rest⟩
  simp only [fieldsFrom, footprints_cons, positions, List.zipWith_cons_cons]

theorem lays_fieldsFrom {members : List Member} (valid : cursor.IsValid)
    (ends : (placeAll (some cursor) (CType.footprints members)).2 = some final) :
    cursor.Lays (fieldsFrom (some cursor) members) final := by
  induction members generalizing cursor with
  | nil =>
    cases ends
    exact ⟨by simp [fieldsFrom], by simp [fieldsFrom], List.Pairwise.nil, .refl _, valid⟩
  | cons member members ih =>
    obtain ⟨position, next, step, fields_cons, rest⟩ := fieldsFrom_cons valid ends
    obtain ⟨_, same, places⟩ := place_spec valid (CType.isSound_footprint _) step
    cases same
    rw [fields_cons]
    refine Lays.cons ⟨position, rfl, places.settled⟩ ?_ places.precedes (ih places.valid rest)
    rw [Field.firstBit_of_position rfl]
    exact places.freeBit_le

/-- The alignment of a structure is at least that of an ordinary member. -/
theorem alignment_le_of_member {members : List Member} {member : Member} {single : Layout}
    (valid : cursor.IsValid)
    (ends : (placeAll (some cursor) (CType.footprints members)).2 = some final)
    (present : member ∈ members) (ordinary : member.type.footprint = .bytes single) :
    single.alignment ≤ final.alignment := by
  induction members generalizing cursor with
  | nil => contradiction
  | cons first members ih =>
    obtain ⟨position, next, step, _, rest⟩ := fieldsFrom_cons valid ends
    obtain ⟨_, _, places⟩ := place_spec valid (CType.isSound_footprint _) step
    rcases List.mem_cons.mp present with rfl | present
    · rw [ordinary] at step
      have moved := alignment_le_of_place_bytes step
      exact Nat.le_trans moved (lays_fieldsFrom places.valid rest).precedes.alignment_le
    · exact ih places.valid rest present

theorem length_placeAll (cursor : Option Cursor) (members : List Footprint) :
    (placeAll cursor members).1.length = members.length := by
  induction members generalizing cursor with
  | nil => cases cursor <;> rfl
  | cons member members ih =>
    cases cursor with
    | none => simp [placeAll]
    | some cursor => simp [placeAll, ih]

end Cursor

theorem Placement.length_positions (shape : Shape) (members : List Footprint) :
    (ofShape shape members).positions.length = members.length := by
  cases shape with
  | struct => exact Cursor.length_placeAll _ _
  | union => exact List.length_map _

/-- Placement keeps the members, in their order. -/
theorem map_toMember_placedFields (shape : Shape) (members : List Member) :
    (placedFields shape members).map (·.toMember) = members := by
  have same : members.length =
      (Placement.ofShape shape (CType.footprints members)).positions.length := by
    rw [Placement.length_positions, CType.footprints_eq_map, List.length_map]
  calc
    (placedFields shape members).map (·.toMember) =
        (members.zip (Placement.ofShape shape (CType.footprints members)).positions).map Prod.fst := by
      rw [placedFields, List.zip, List.map_zipWith, List.map_zipWith]
    _ = members := List.map_fst_zip (Nat.le_of_eq same)

/-- A bitfield of a union starts at the first bit of the union and fits its storage unit. -/
theorem union_bitfield_fits {name : Option String} {members : List Member} {layout : Layout}
    {field : Field} {width : Nat} (known : (CType.aggregate .union name members).layout? = some layout)
    (present : field ∈ placedFields .union members) (isBits : field.width? = some width) :
    field.bit? = some 0 ∧ width ≤ 8 * field.byteCount := by
  simp only [CType.layout?] at known
  obtain ⟨joined, join, _⟩ := Option.bind_eq_some_iff.mp known
  obtain ⟨index, inside, atIndex⟩ := List.mem_iff_getElem.mp present
  obtain ⟨member, position, isMember, isPosition, rfl⟩ :=
    List.getElem?_zipWith_eq_some.mp (List.getElem?_eq_some_iff.mpr ⟨inside, atIndex⟩)
  obtain ⟨bits, layout_eq⟩ : member.type.footprint = .bits width ∧
      member.type.layout? = (storageUnit? width).map fun unit => ⟨unit, unit⟩ := by
    rcases Field.footprint_cases ⟨member, position⟩ with ⟨other, same, bits, layout_eq⟩ |
      ⟨ordinary, _⟩ | ⟨ordinary, _⟩
    · rw [isBits] at same
      cases same
      exact ⟨bits, layout_eq⟩
    · rw [isBits] at ordinary
      contradiction
    · rw [isBits] at ordinary
      contradiction
  have footprint : (CType.footprints members)[index]? = some (.bits width) := by
    simp [CType.footprints_eq_map, isMember, bits]
  have sized := Placement.isSome_of_joinLayouts? join _ (List.mem_of_getElem? footprint)
  obtain ⟨inner, unitLayout⟩ := Option.isSome_iff_exists.mp sized
  obtain ⟨unit, storage, _⟩ := Option.map_eq_some_iff.mp unitLayout
  have start : position = some ⟨0, some 0⟩ := by
    simp only [Placement.ofShape, Placement.ofUnion, List.getElem?_map, footprint, Option.map_some,
      Option.some.injEq] at isPosition
    exact isPosition.symm
  refine ⟨by simp [Field.bit?, start], ?_⟩
  simp only [Field.byteCount, layout_eq, storage, Option.map_some, Option.getD_some]
  exact (Cursor.storageUnit?_spec storage).2

/-- The fields of a structure whose layout is known are well placed. -/
theorem wellPlaced_placedFields {name : Option String} {members : List Member} {layout : Layout}
    (known : (CType.aggregate .struct name members).layout? = some layout) :
    WellPlaced (placedFields .struct members) layout.size := by
  simp only [CType.layout?] at known
  obtain ⟨final, ends, size⟩ := Option.bind_eq_some_iff.mp known
  have lays := Cursor.lays_fieldsFrom Cursor.isValid_start ends
  exact ⟨fun field present => (lays.settled field present).placedAt lays.valid size, lays.ordered⟩

theorem CType.layout?_footprint (type : CType) : type.footprint.layout? = type.layout? := by
  rcases Field.footprint_cases ⟨⟨none, type, .unretained⟩, none⟩ with ⟨width, _, bits, layout_eq⟩ |
    ⟨_, layout, layout_eq, bytes | ⟨tail, empty⟩⟩ | ⟨_, unsized⟩
  · rw [bits, layout_eq, Footprint.layout?]
  · rw [bytes, layout_eq, Footprint.layout?]
  · rw [tail, layout_eq, Footprint.layout?, ← empty]
  · cases known : type.layout? with
    | none => rw [unsized, Footprint.layout?]
    | some layout =>
      simp only [footprint, known, Footprint.ofType.eq_def] at unsized
      split at unsized <;> contradiction

/-- The members of an aggregate of known layout have known layouts. -/
theorem CType.isSized_of_member {shape : Shape} {name : Option String} {members : List Member}
    {member : Member} (sized : (aggregate shape name members).isSized = true)
    (present : member ∈ members) : member.type.isSized = true := by
  obtain ⟨layout, known⟩ := Option.isSome_iff_exists.mp sized
  cases shape with
  | struct =>
    rw [← map_toMember_placedFields .struct members] at present
    obtain ⟨field, isField, rfl⟩ := List.mem_map.mp present
    obtain ⟨_, placed⟩ := (wellPlaced_placedFields known).placed field isField
    exact placed.isSized
  | union =>
    simp only [layout?] at known
    obtain ⟨joined, join, _⟩ := Option.bind_eq_some_iff.mp known
    have footprint : member.type.footprint ∈ footprints members := by
      rw [footprints_eq_map]
      exact List.mem_map_of_mem present
    have single := Placement.isSome_of_joinLayouts? join _ footprint
    rwa [layout?_footprint] at single

/-- A structure that is aligned aligns its ordinary members. -/
theorem alignment_dvd_of_member {name : Option String} {members : List Member} {member : Member}
    {layout single : Layout} (known : (CType.aggregate .struct name members).layout? = some layout)
    (present : member ∈ members) (ordinary : member.type.footprint = .bytes single) :
    single.alignment ∣ layout.alignment := by
  simp only [CType.layout?] at known
  obtain ⟨final, ends, size⟩ := Option.bind_eq_some_iff.mp known
  have valid := (Cursor.lays_fieldsFrom Cursor.isValid_start ends).valid
  have sound := (CType.isSound_footprint member.type)
  rw [ordinary] at sound
  obtain ⟨_, alignment_eq, _⟩ := Cursor.layout?_spec valid size
  rw [alignment_eq]
  exact (sound.layout rfl).alignment.dvd_of_le valid.alignment
    (Cursor.alignment_le_of_member Cursor.isValid_start ends present ordinary)

/-- Layouts are sound: types have an alignment from the list that divides their size, and in every
structure of known layout each member is placed, apart from the others and inside the structure. -/
theorem layouts_sound :
    (∀ (type : CType) (layout : Layout), type.layout? = some layout →
      IsAlignment layout.alignment ∧ layout.alignment ∣ layout.size) ∧
    ∀ (name : Option String) (members : List Member) (layout : Layout),
      (CType.aggregate .struct name members).layout? = some layout →
        (placedFields .struct members).map (·.toMember) = members ∧
          WellPlaced (placedFields .struct members) layout.size := by
  constructor
  · intro type layout known
    have sound := CType.isSound_of_layout? type known
    exact ⟨sound.alignment, sound.dvd_size⟩
  · intro name members layout known
    exact ⟨map_toMember_placedFields .struct members, wellPlaced_placedFields known⟩

/-- Bitfields of both units, a gap and a flexible tail around ordinary members. -/
def mixedMembers : List Member :=
  [.ofType none (.scalar .char), .ofType none (.bitfield 20), .ofType none (.bitfield 40),
    .ofType none (.scalar .short), .ofType none (.bitfield 0), .ofType none (.bitfield 3),
    .ofType none (.array 0 (.scalar .double))]

theorem layouts_sound_mixed :
    (CType.aggregate .struct none mixedMembers).layout? = some ⟨24, 8⟩ ∧
      IsAlignment 8 ∧ 8 ∣ 24 ∧ (placedFields .struct mixedMembers).map (·.toMember) = mixedMembers ∧
        WellPlaced (placedFields .struct mixedMembers) 24 := by
  have known : (CType.aggregate .struct none mixedMembers).layout? = some ⟨24, 8⟩ := by decide
  have sound := layouts_sound.1 _ _ known
  have fields := layouts_sound.2 _ _ _ known
  exact ⟨known, sound.1, sound.2, fields.1, fields.2⟩

end ForeignCall
