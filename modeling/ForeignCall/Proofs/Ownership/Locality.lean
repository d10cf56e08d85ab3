import ForeignCall.Proofs.Ownership.Slots

/-! # Where owned references lie

A reference can only be aligned in a value if the value is. So a type that owns references is aligned as a
pointer is, or more strictly, and an induction on the type that carries this along shows that its slots are
multiples of a pointer's size, one after the other (`Layout.Carries`). Together with the places of fields and
elements it follows that ownership is local: within the bytes of a part, the whole owns what the part does.
-/

namespace ForeignCall

/-- References that a value of some layout can own: each is aligned, they lie apart in order, and a value
that owns any is aligned at least as they are. -/
structure Layout.Carries (layout : Layout) (slots : List Nat) : Prop where
  alignment : slots ≠ [] → pointerSize ∣ layout.alignment
  aligned : ∀ slot ∈ slots, pointerSize ∣ slot
  apart : slots.Pairwise fun earlier later => earlier + pointerSize ≤ later

namespace Layout

variable {layout single : Layout} {slots : List Nat} {count : Nat}

theorem carries_nil (layout : Layout) : layout.Carries [] := ⟨by simp, by simp, .nil⟩

theorem carries_pointer : pointer.Carries [0] := ⟨by decide, by decide, by simp⟩

/-- What elements carry stays aligned and apart in an array, as an element is aligned and as large as it
says. -/
theorem Carries.repeated (carries : single.Carries slots) (sound : single.IsSound)
    (inside : ∀ slot ∈ slots, slot + pointerSize ≤ single.size)
    (known : single.repeated? count = some layout) :
    layout.Carries (repeatSlots single.size count slots) := by
  obtain ⟨size, fits, rfl⟩ := Option.map_eq_some_iff.mp known
  rw [repeatSlots_eq_flatMap]
  refine ⟨fun some_slots => ?_, fun slot present => ?_, List.pairwise_flatMap.mpr ⟨fun index _ => ?_, ?_⟩⟩
  · apply carries.alignment
    rintro rfl
    simp at some_slots
  · obtain ⟨index, _, among⟩ := List.mem_flatMap.mp present
    obtain ⟨inner, isSlot, rfl⟩ := List.mem_map.mp among
    have stride : pointerSize ∣ single.size :=
      Nat.dvd_trans (carries.alignment (List.ne_nil_of_mem isSlot)) sound.dvd_size
    exact Nat.dvd_add (Nat.dvd_mul_right_of_dvd stride index) (carries.aligned inner isSlot)
  · rw [List.pairwise_map]
    refine carries.apart.imp fun {earlier later} le => ?_
    omega
  · refine List.pairwise_lt_range.imp fun {first second} less => ?_
    intro earlier isEarlier later isLater
    obtain ⟨inner, isSlot, rfl⟩ := List.mem_map.mp isEarlier
    obtain ⟨inner', _, rfl⟩ := List.mem_map.mp isLater
    have before := stride_end_le less (inside inner isSlot)
    omega

end Layout

/-! ## Fields -/

namespace Field

variable {field : Field} {offset size slot : Nat}

/-- A placed field carries what its type does, or the reference that its retention adds. -/
theorem carries_ownedSlots {single : Layout} (known : field.type.layout? = some single)
    (carries : single.Carries field.type.ownedSlots) : single.Carries field.ownedSlots := by
  unfold ownedSlots memberSlots
  split
  next counted =>
    have pointer : single = .pointer := Option.some.inj (known.symm.trans (CType.layout?_of_isObject counted))
    split
    · exact pointer ▸ Layout.carries_pointer
    · exact single.carries_nil
  next => exact carries

/-- A reference of a placed field lies among the field's bits. -/
theorem placedSlots_bits (placed : field.PlacedAt offset size) (present : slot ∈ field.placedSlots) :
    field.width? = none ∧ field.firstBit ≤ 8 * slot ∧
      8 * (slot + pointerSize) ≤ field.firstBit + field.bitCount := by
  have inside := CType.ownsInside_ownedSlots field.type
  obtain ⟨ordinary, start, stop⟩ := placedSlots_inside placed inside present
  obtain ⟨first, count⟩ := placed.bits_of_ordinary ordinary
  exact ⟨ordinary, by omega, by omega⟩

/-- A placed field that owns a reference is an ordinary member with bytes of its own. -/
theorem footprint_of_placedSlots (placed : field.PlacedAt offset size) (present : slot ∈ field.placedSlots) :
    ∃ single, field.type.layout? = some single ∧ field.type.footprint = .bytes single := by
  obtain ⟨ordinary, start, stop⟩ := placedSlots_bits placed present
  obtain ⟨_, count⟩ := placed.bits_of_ordinary ordinary
  rcases field.footprint_cases with ⟨_, isBits, _⟩ | ⟨_, single, known, bytes | ⟨_, empty⟩⟩ | ⟨_, unsized⟩
  · rw [ordinary] at isBits
    contradiction
  · exact ⟨single, known, bytes⟩
  · have none_taken : field.byteCount = 0 := by simp [byteCount, known, empty]
    have some_taken : 0 < pointerSize := by decide
    omega
  · have sized := placed.isSized
    rw [CType.isSized, ← CType.layout?_footprint, unsized] at sized
    contradiction

/-- The references of a placed field are aligned, as the field is. -/
theorem placedSlots_aligned (placed : field.PlacedAt offset size) {single : Layout}
    (known : field.type.layout? = some single) (carries : single.Carries field.ownedSlots)
    (present : slot ∈ field.placedSlots) : pointerSize ∣ single.alignment ∧ pointerSize ∣ slot := by
  have ordinary := (placedSlots_bits placed present).1
  have aligned := (placed.aligned ordinary).2
  simp only [CType.alignment, known, Option.map_some, Option.getD_some] at aligned
  simp only [placedSlots, placed.offset_eq] at present
  obtain ⟨inner, isSlot, rfl⟩ := List.mem_map.mp present
  have pointers := carries.alignment (List.ne_nil_of_mem isSlot)
  exact ⟨pointers, Nat.dvd_add (Nat.dvd_trans pointers aligned) (carries.aligned inner isSlot)⟩

end Field

namespace CType

variable {name : Option String} {members : List Member} {layout : Layout}

/-- A structure carries what its fields do, at their places. -/
theorem carries_struct (known : (aggregate .struct name members).layout? = some layout)
    (carry : ∀ member ∈ members, ∀ single, member.type.layout? = some single →
      single.Carries member.type.ownedSlots) :
    layout.Carries (aggregate .struct name members).ownedSlots := by
  have wellPlaced := wellPlaced_placedFields known
  have isMember : ∀ field ∈ placedFields .struct members, field.toMember ∈ members := by
    intro field isField
    rw [← map_toMember_placedFields .struct members]
    exact List.mem_map_of_mem isField
  have carries : ∀ field ∈ placedFields .struct members, ∃ single, field.type.layout? = some single ∧
      single.Carries field.ownedSlots := by
    intro field isField
    obtain ⟨_, placed⟩ := wellPlaced.placed field isField
    obtain ⟨single, sized⟩ := Option.isSome_iff_exists.mp placed.isSized
    exact ⟨single, sized, field.carries_ownedSlots sized (carry _ (isMember field isField) single sized)⟩
  rw [ownedSlots_struct]
  refine ⟨fun some_slots => ?_, fun slot present => ?_, List.pairwise_flatMap.mpr ⟨fun field isField => ?_, ?_⟩⟩
  -- A flexible tail does not count for the structure's alignment, but it owns nothing either.
  · obtain ⟨slot, present⟩ := List.exists_mem_of_ne_nil _ some_slots
    obtain ⟨field, isField, among⟩ := List.mem_flatMap.mp present
    obtain ⟨_, placed⟩ := wellPlaced.placed field isField
    obtain ⟨single, sized, bytes⟩ := Field.footprint_of_placedSlots placed among
    obtain ⟨_, sized', carried⟩ := carries field isField
    cases sized.symm.trans sized'
    have pointers := (Field.placedSlots_aligned placed sized carried among).1
    exact Nat.dvd_trans pointers (alignment_dvd_of_member known (isMember field isField) bytes)
  · obtain ⟨field, isField, among⟩ := List.mem_flatMap.mp present
    obtain ⟨_, placed⟩ := wellPlaced.placed field isField
    obtain ⟨single, sized, carried⟩ := carries field isField
    exact (Field.placedSlots_aligned placed sized carried among).2
  · obtain ⟨offset, placed⟩ := wellPlaced.placed field isField
    obtain ⟨single, _, carried⟩ := carries field isField
    simp only [Field.placedSlots, placed.offset_eq, List.pairwise_map]
    refine carried.apart.imp fun {earlier later} le => ?_
    omega
  · refine wellPlaced.ordered.imp_of_mem fun {first second} isFirst isSecond ordered => ?_
    intro earlier isEarlier later isLater
    obtain ⟨_, placed⟩ := wellPlaced.placed first isFirst
    obtain ⟨_, placed'⟩ := wellPlaced.placed second isSecond
    have stop := (Field.placedSlots_bits placed isEarlier).2.2
    have start := (Field.placedSlots_bits placed' isLater).2.1
    omega

mutual

/-- A type with a layout carries the references that it owns. -/
theorem carries_ownedSlots : (type : CType) → {layout : Layout} → type.layout? = some layout →
    layout.Carries type.ownedSlots
  | object _ _, _, known | block _, _, known => by
    simp only [layout?, Option.some.injEq] at known
    rw [ownedSlots, ← known]
    exact Layout.carries_pointer
  | wrapped .const inner, _, known | wrapped .atomic inner, _, known => by
    rw [ownedSlots]
    exact carries_ownedSlots inner (by simpa only [layout?] using known)
  | array count element, layout, known => by
    simp only [layout?] at known
    obtain ⟨single, found, repeated⟩ := Option.bind_eq_some_iff.mp known
    rw [ownedSlots, found]
    have inside := ownsInside_ownedSlots element single found
    exact (carries_ownedSlots element found).repeated (isSound_of_layout? element found) inside repeated
  | aggregate .struct name members, _, known => carries_struct known (carries_members members)
  | unknown, layout, _ | void, layout, _ | scalar _, layout, _ | classRef, layout, _
  | wrapped .pointer _, layout, _ | wrapped .complex _, layout, _ | wrapped .vector _, layout, _
  | bitfield _, layout, _ | aggregate .union _ _, layout, _ | forward _ _, layout, _ => by
    rw [ownedSlots]
    · exact layout.carries_nil
    all_goals simp

theorem carries_members : (members : List Member) → ∀ member ∈ members, ∀ single,
    member.type.layout? = some single → single.Carries member.type.ownedSlots
  | [], _, present => by contradiction
  | ⟨_, type, _⟩ :: members, member, present => by
    rcases List.mem_cons.mp present with rfl | present
    · exact fun _ => carries_ownedSlots type
    · exact carries_members members member present

end

end CType

/-! ## Parts -/

/-- The slots that begin among some bytes. -/
def slotsWithin (slots : List Nat) (offset size : Nat) : List Nat :=
  slots.filter fun slot => offset ≤ slot && slot < offset + size

/-- Of slots that are those of a part among others, the part's are those within its bytes. -/
theorem slotsWithin_of_split {slots before part after : List Nat} {offset size : Nat}
    (split : slots = before ++ part ++ after)
    (inside : ∀ slot ∈ part, offset ≤ slot ∧ slot < offset + size)
    (outside : ∀ slot, slot ∈ before ∨ slot ∈ after → slot < offset ∨ offset + size ≤ slot) :
    slotsWithin slots offset size = part := by
  have dropped (others : List Nat) (apart : ∀ slot ∈ others, slot < offset ∨ offset + size ≤ slot) :
      slotsWithin others offset size = [] := by
    rw [slotsWithin, List.filter_eq_nil_iff]
    intro slot present
    have beyond := apart slot present
    simp only [Bool.and_eq_true, decide_eq_true_eq]
    omega
  have kept : slotsWithin part offset size = part := by
    rw [slotsWithin, List.filter_eq_self]
    intro slot present
    simpa using inside slot present
  have first := dropped before fun slot present => outside slot (.inl present)
  have last := dropped after fun slot present => outside slot (.inr present)
  calc
    slotsWithin slots offset size =
        slotsWithin before offset size ++ slotsWithin part offset size ++ slotsWithin after offset size := by
      rw [split]
      simp [slotsWithin]
    _ = part := by rw [first, kept, last, List.nil_append, List.append_nil]

namespace CType

variable {name : Option String} {members : List Member} {layout : Layout} {field : Field}

/-- A field of a structure owns what the structure owns in the field's bytes. -/
theorem slotsWithin_field {offset : Nat} (known : (aggregate .struct name members).layout? = some layout)
    (isField : field ∈ placedFields .struct members) (ordinary : field.width? = none)
    (offset_eq : field.offset? = some offset) :
    slotsWithin (aggregate .struct name members).ownedSlots offset field.byteCount =
      field.ownedSlots.map (offset + ·) := by
  have wellPlaced := wellPlaced_placedFields known
  obtain ⟨index, isIndex⟩ := List.mem_iff_getElem?.mp isField
  obtain ⟨_, placed⟩ := wellPlaced.placed field isField
  cases placed.offset_eq.symm.trans offset_eq
  obtain ⟨first, count⟩ := placed.bits_of_ordinary ordinary
  obtain ⟨before, after, split, others⟩ := flatMap_split isIndex Field.placedSlots
  have part : field.placedSlots = field.ownedSlots.map (offset + ·) := by rw [Field.placedSlots, offset_eq]
  rw [ownedSlots_struct, ← part]
  have some_bytes : 0 < pointerSize := by decide
  refine slotsWithin_of_split split (fun slot present => ?_) fun slot among => ?_
  · obtain ⟨_, start, stop⟩ := Field.placedSlots_bits placed present
    omega
  · obtain ⟨other, another, different, isOther, present⟩ := others slot among
    obtain ⟨_, placed'⟩ := wellPlaced.placed another (List.mem_of_getElem? isOther)
    obtain ⟨_, start, stop⟩ := Field.placedSlots_bits placed' present
    have apart := wellPlaced.apart different isOther isIndex
    omega

/-- A bitfield shares no bit with a reference of the structure. -/
theorem bitfield_apart_of_ownedSlots {width slot : Nat}
    (known : (aggregate .struct name members).layout? = some layout)
    (isField : field ∈ placedFields .struct members) (isBits : field.width? = some width)
    (owned : slot ∈ (aggregate .struct name members).ownedSlots) :
    field.firstBit + width ≤ 8 * slot ∨ 8 * (slot + pointerSize) ≤ field.firstBit := by
  have wellPlaced := wellPlaced_placedFields known
  rw [ownedSlots_struct] at owned
  obtain ⟨another, isAnother, present⟩ := List.mem_flatMap.mp owned
  obtain ⟨_, placed⟩ := wellPlaced.placed another isAnother
  obtain ⟨ordinary, start, stop⟩ := Field.placedSlots_bits placed present
  obtain ⟨index, isIndex⟩ := List.mem_iff_getElem?.mp isField
  obtain ⟨other, isOther⟩ := List.mem_iff_getElem?.mp isAnother
  have bits : field.bitCount = width := by simp [Field.bitCount, isBits]
  have different : index ≠ other := by
    rintro rfl
    cases isIndex.symm.trans isOther
    rw [ordinary] at isBits
    contradiction
  have apart := wellPlaced.apart different isIndex isOther
  omega

/-- An element of an array owns what the array owns in the element's bytes. -/
theorem slotsWithin_element {element : CType} {single : Layout} {count index : Nat}
    (found : element.layout? = some single) (inside : index < count) :
    slotsWithin (array count element).ownedSlots (single.size * index) single.size =
      element.ownedSlots.map (single.size * index + ·) := by
  have owned : (array count element).ownedSlots =
      (List.range count).flatMap fun index => element.ownedSlots.map (single.size * index + ·) := by
    rw [ownedSlots, found]
    exact repeatSlots_eq_flatMap single.size count element.ownedSlots
  have present : (List.range count)[index]? = some index := List.getElem?_range inside
  have within := ownsInside_ownedSlots element single found
  have some_bytes : 0 < pointerSize := by decide
  obtain ⟨before, after, split, others⟩ := flatMap_split present fun index =>
    element.ownedSlots.map (single.size * index + ·)
  refine slotsWithin_of_split (owned.trans split) (fun slot among => ?_) fun slot among => ?_
  · obtain ⟨inner, isSlot, rfl⟩ := List.mem_map.mp among
    have bound := within inner isSlot
    omega
  · obtain ⟨other, another, different, isOther, among⟩ := others slot among
    obtain ⟨inner, isSlot, rfl⟩ := List.mem_map.mp among
    obtain ⟨_, rfl⟩ : other < count ∧ other = another := by simpa [List.getElem?_eq_some_iff] using isOther
    have bound := within inner isSlot
    rcases Nat.lt_or_gt_of_ne different with less | greater
    · have before := stride_end_le less bound
      omega
    · have before := stride_end_le greater (Nat.le_refl single.size)
      omega

/-- The elements of an array with a layout lie at known offsets. -/
theorem elementOffset?_of_lt {element : CType} {count index : Nat}
    (known : (array count element).layout? = some layout) (inside : index < count) :
    ∃ single, element.layout? = some single ∧ element.elementOffset? index = some (single.size * index) := by
  simp only [layout?] at known
  obtain ⟨single, found, repeated⟩ := Option.bind_eq_some_iff.mp known
  obtain ⟨size, fits, _⟩ := Option.map_eq_some_iff.mp repeated
  obtain ⟨limited, rfl⟩ := fits?_eq_some_iff.mp fits
  refine ⟨single, found, ?_⟩
  rw [elementOffset?, found, Option.bind_some]
  have below := Nat.mul_le_mul_left single.size (Nat.le_of_lt inside)
  exact fits?_eq_some_iff.mpr ⟨Nat.lt_of_le_of_lt below limited, rfl⟩

end CType

/-- Slots that can be read as references in so many bytes: aligned, in order, apart and inside. -/
structure SlotsFit (slots : List Nat) (size : Nat) : Prop where
  increasing : slots.Pairwise (· < ·)
  aligned : ∀ slot ∈ slots, pointerSize ∣ slot
  apart : slots.Pairwise fun earlier later => earlier + pointerSize ≤ later
  inside : ∀ slot ∈ slots, slot + pointerSize ≤ size

namespace CType

theorem slotsFit_ownedSlots {type : CType} {layout : Layout} (known : type.layout? = some layout) :
    SlotsFit type.ownedSlots layout.size := by
  have carries := carries_ownedSlots type known
  refine ⟨carries.apart.imp fun {earlier later} le => ?_, carries.aligned, carries.apart,
    ownsInside_ownedSlots type layout known⟩
  exact Nat.lt_of_lt_of_le (Nat.lt_add_of_pos_right (by decide)) le

/-- The references that a sized type owns are well-formed slots, each of which can be read in every value of
the type, and ownership is local. In the bytes of a field of a structure that is no bitfield, or of an
element of an array, the whole owns exactly what the part owns there; a bitfield shares no bit with a
reference. -/
theorem ownedSlots_fit_and_local (type : CType) (layout : Layout) (known : type.layout? = some layout) :
    SlotsFit type.ownedSlots layout.size ∧
      (∀ value : Value, value.type = type → ∀ slot ∈ type.ownedSlots,
        ∃ region, Bytes.slice? value.bytes slot pointerSize = some region) ∧
      (∀ name members, type.unqualified = .aggregate .struct name members →
        ∀ field ∈ placedFields .struct members, ∃ offset, field.offset? = some offset ∧
          (field.width? = none →
            slotsWithin type.ownedSlots offset field.byteCount = field.ownedSlots.map (offset + ·)) ∧
          ∀ width, field.width? = some width → ∀ slot ∈ type.ownedSlots,
            field.firstBit + width ≤ 8 * slot ∨ 8 * (slot + pointerSize) ≤ field.firstBit) ∧
      ∀ count element, type.unqualified = .array count element → ∀ index < count,
        ∃ offset, element.elementOffset? index = some offset ∧
          slotsWithin type.ownedSlots offset element.size = element.ownedSlots.map (offset + ·) := by
  have unqualified : type.unqualified.layout? = some layout := by rw [layout?_unqualified, known]
  have fit := slotsFit_ownedSlots known
  refine ⟨fit, ?_, ?_, ?_⟩
  · rintro value rfl slot owned
    obtain ⟨_, known', size⟩ := Option.map_eq_some_iff.mp value.size_eq
    cases known.symm.trans known'
    exact ⟨_, Bytes.slice?_eq_some_iff.mpr ⟨size ▸ fit.inside slot owned, rfl⟩⟩
  · intro name members kind field isField
    rw [kind] at unqualified
    rw [← ownedSlots_unqualified, kind]
    obtain ⟨offset, placed⟩ := (wellPlaced_placedFields unqualified).placed field isField
    exact ⟨offset, placed.offset_eq,
      fun ordinary => slotsWithin_field unqualified isField ordinary placed.offset_eq,
      fun width isBits slot => bitfield_apart_of_ownedSlots unqualified isField isBits⟩
  · intro count element kind index inside
    rw [kind] at unqualified
    rw [← ownedSlots_unqualified, kind]
    obtain ⟨single, found, offset⟩ := elementOffset?_of_lt unqualified inside
    have size : element.size = single.size := by simp [CType.size, found]
    exact ⟨_, offset, size ▸ slotsWithin_element found inside⟩

/-- References in a nested structure and in an array, around a bitfield, a union and a weak reference. -/
def holderMembers : List Member :=
  [.ofType none (scalar .int), .ofType none (bitfield 20),
    .ofType (some "inner") (aggregate .struct none [.ofType none anyObject, .ofType none (scalar .char)]),
    .ofType none (aggregate .union none [.ofType none anyObject]), ⟨some "owner", anyObject, .weak⟩,
    .ofType (some "pair") (array 2 (block none))]

theorem ownedSlots_fit_and_local_holder :
    (wrapped .const (aggregate .struct none holderMembers)).layout? = some ⟨56, 8⟩ ∧
      SlotsFit [8, 40, 48] 56 ∧ slotsWithin [8, 40, 48] 8 16 = [8] ∧
      slotsWithin [8, 40, 48] 40 16 = [40, 48] ∧
      (∀ slot ∈ [8, 40, 48], 32 + 20 ≤ 8 * slot ∨ 8 * (slot + 8) ≤ 32) ∧
      (array 2 (block none)).layout? = some ⟨16, 8⟩ ∧ slotsWithin [0, 8] 8 8 = [8] := by
  have known : (wrapped .const (aggregate .struct none holderMembers)).layout? = some ⟨56, 8⟩ := by decide
  have array_known : (array 2 (block none)).layout? = some ⟨16, 8⟩ := by decide
  obtain ⟨fit, _, fields, _⟩ := ownedSlots_fit_and_local _ _ known
  obtain ⟨_, _, _, elements⟩ := ownedSlots_fit_and_local _ _ array_known
  have place (index : Nat) {field : Field} (isField : (placedFields .struct holderMembers)[index]? = some field) :=
    fields none holderMembers rfl field (List.mem_of_getElem? isField)
  obtain ⟨_, same, inner, _⟩ := place 2 rfl
  cases same
  obtain ⟨_, same, pair, _⟩ := place 5 rfl
  cases same
  obtain ⟨_, same, _, bits⟩ := place 1 rfl
  obtain ⟨_, same, second⟩ := elements 2 (block none) rfl 1 (by decide)
  cases same
  exact ⟨known, fit, inner rfl, pair rfl, bits 20 rfl, array_known, second⟩

end CType

end ForeignCall
