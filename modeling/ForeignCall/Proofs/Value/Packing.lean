import ForeignCall.Proofs.Value.Place
import ForeignCall.Value.Tuple

/-! # Packed entries

Entries are packed by storing each in its field of one structure. A store leaves the slots of the
other fields as they are, so in the end every ordinary field holds the bytes of its entry
(`Value.region_of_tuple`).
-/

namespace ForeignCall

namespace Value

variable {host : Hierarchy} {tuple packed : Value} {entries : List Entry} {entry : Entry}
variable {index position : Nat} {slot : Slot} {region : List UInt8}

/-- A structure stays a structure while its fields are written. -/
def IsStructure (value : Value) : Prop :=
  ∃ name members, value.type.unqualified = .aggregate .struct name members

theorem isStructure_of_type_eq (type_eq : tuple.type = tupleType entries) : tuple.IsStructure :=
  ⟨none, entries.map fun entry => .ofType entry.name entry.value.type, by rw [type_eq]; rfl⟩

/-- A write to one field of a structure leaves the ordinary fields of other indices as they are. -/
theorem region_of_other_field {updated : Value} {other : Slot} {bytes : List UInt8} {incoming : CType}
    {events : List ReferenceEvent} (isStructure : tuple.IsStructure)
    (found : tuple.slot (.index index) = .ok slot)
    (written : tuple.writeSlot host slot bytes incoming = .ok (updated, events))
    (isOther : tuple.slot (.index position) = .ok other) (different : index ≠ position)
    (ordinary : other.bits = none) : updated.region other = tuple.region other := by
  have notUnion : ∀ name members, tuple.type.unqualified ≠ .aggregate .union name members := by
    obtain ⟨_, _, kind⟩ := isStructure
    simp [kind]
  have disjoint := slots_disjoint notUnion rfl found rfl isOther different
  exact region_of_writeSlot_of_disjoint (slot_fits found) ordinary disjoint written

/-- Storing entries begins with the first and goes on behind it. -/
theorem storeEntries_cons_eq_ok
    (storing : (storeEntries host tuple index (entry :: entries)).1 = .ok packed) :
    ∃ slot next events, tuple.slot (.index index) = .ok slot ∧
      tuple.writeSlot host slot entry.value.bytes entry.value.type = .ok (next, events) ∧
      next.type = tuple.type ∧ (storeEntries host next (index + 1) entries).1 = .ok packed := by
  rw [storeEntries] at storing
  cases stored : tuple.store host (.index index) entry.value with
  | error error =>
    rw [stored] at storing
    contradiction
  | ok result =>
    rw [stored] at storing
    obtain ⟨slot, found, written⟩ := write_eq_ok stored
    obtain ⟨_, type_eq, _⟩ := writeSlot_eq_ok written
    exact ⟨slot, result.1, result.2, found, written, type_eq, storing⟩

/-- Storing entries from an index on leaves the ordinary fields before it as they are. -/
theorem storeEntries_keeps (isStructure : tuple.IsStructure)
    (storing : (storeEntries host tuple index entries).1 = .ok packed) :
    packed.type = tuple.type ∧ ∀ {position slot region},
      position < index → tuple.slot (.index position) = .ok slot → slot.bits = none →
        tuple.region slot = .ok region → packed.region slot = .ok region := by
  induction entries generalizing tuple index with
  | nil =>
    cases storing
    exact ⟨rfl, fun _ _ _ found => found⟩
  | cons entry entries ih =>
    obtain ⟨other, next, events, isOther, written, type_eq, rest⟩ := storeEntries_cons_eq_ok storing
    obtain ⟨packed_eq, keeps⟩ := ih (by rwa [IsStructure, type_eq]) rest
    refine ⟨packed_eq.trans type_eq, ?_⟩
    intro position slot region before found ordinary isRegion
    have kept :=
      region_of_other_field isStructure isOther written found (Nat.ne_of_gt before) ordinary
    exact keeps (Nat.lt_succ_of_lt before) (by rw [slot_congr type_eq, found]) ordinary
      (by rw [kept, isRegion])

/-- An ordinary field has the bytes of the entry that was stored in it. -/
theorem region_of_storeEntries (isStructure : tuple.IsStructure)
    (storing : (storeEntries host tuple index entries).1 = .ok packed)
    (present : entries[position]? = some entry)
    (found : tuple.slot (.index (index + position)) = .ok slot) (ordinary : slot.bits = none) :
    packed.region slot = .ok entry.value.bytes := by
  induction entries generalizing tuple index position with
  | nil => contradiction
  | cons first entries ih =>
    obtain ⟨other, next, events, isOther, written, type_eq, rest⟩ := storeEntries_cons_eq_ok storing
    have isStructure : next.IsStructure := by rwa [IsStructure, type_eq]
    cases position with
    | zero =>
      cases present
      cases isOther.symm.trans found
      exact (storeEntries_keeps isStructure rest).2 (Nat.lt_succ_self index)
        ((slot_congr type_eq _).trans isOther) ordinary (region_of_writeSlot ordinary written)
    | succ position =>
      refine ih isStructure rest present ?_
      rw [slot_congr type_eq, Nat.add_assoc, Nat.add_comm 1]
      exact found

/-- Packing stores the entries in a structure for them. -/
theorem tuple_eq_ok (packing : (Value.tuple host entries).1 = .ok packed) :
    ∃ empty, empty.type = tupleType entries ∧
      (storeEntries host empty 0 entries).1 = .ok packed := by
  unfold Value.tuple at packing
  cases made : zeroed (tupleType entries) with
  | error error =>
    simp only [made] at packing
    contradiction
  | ok empty =>
    refine ⟨empty, (zeroed_eq_ok made).1, ?_⟩
    rcases storing : storeEntries host empty 0 entries with ⟨failed | result, events⟩
    · simp only [made, storing] at packing
      contradiction
    · simp only [made, storing, Except.ok.injEq] at packing
      rw [packing]

theorem type_of_tuple (packing : (Value.tuple host entries).1 = .ok packed) :
    packed.type = tupleType entries := by
  obtain ⟨empty, type_eq, storing⟩ := tuple_eq_ok packing
  have isStructure := isStructure_of_type_eq type_eq
  exact (storeEntries_keeps isStructure storing).1.trans type_eq

/-- Every ordinary field of a tuple has the bytes of its entry. -/
theorem region_of_tuple (packing : (Value.tuple host entries).1 = .ok packed)
    (present : entries[position]? = some entry)
    (found : packed.slot (.index position) = .ok slot) (ordinary : slot.bits = none) :
    packed.region slot = .ok entry.value.bytes := by
  have packed_eq := type_of_tuple packing
  obtain ⟨empty, type_eq, storing⟩ := tuple_eq_ok packing
  have isStructure := isStructure_of_type_eq type_eq
  refine region_of_storeEntries isStructure storing present ?_ ordinary
  rw [Nat.zero_add, ← slot_congr (packed_eq.trans type_eq.symm), found]

/-- The fields of a tuple are of the types of the entries. -/
theorem fields_of_tuple (packing : (Value.tuple host entries).1 = .ok packed) :
    packed.type.fields.map (·.toMember) =
      entries.map fun entry => .ofType entry.name entry.value.type := by
  rw [type_of_tuple packing]
  exact map_toMember_placedFields .struct _

theorem type_of_field {field : Field} (packing : (Value.tuple host entries).1 = .ok packed)
    (present : entries[position]? = some entry)
    (isField : packed.type.fields[position]? = some field) : field.type = entry.value.type := by
  have member := congrArg (·[position]?) (fields_of_tuple packing)
  simp only [List.getElem?_map, isField, present, Option.map_some, Option.some.injEq] at member
  exact congrArg Member.type member

theorem slot_of_tuple {field : Field} {offset : Nat}
    (packing : (Value.tuple host entries).1 = .ok packed)
    (isField : packed.type.fields[position]? = some field) (ordinary : field.width? = none)
    (offset_eq : field.offset? = some offset) :
    packed.slot (.index position) = .ok ⟨offset, field.type, field.ownedSlots, none⟩ := by
  rw [type_of_tuple packing] at isField
  apply slot_of_field _ isField ordinary offset_eq
  · exact none
  · rw [type_of_tuple packing]
    rfl

/-- A value lies at an offset of a larger one, aligned wherever the larger one is. -/
structure HoldsAt (value : Value) (offset : Nat) (part : Value) : Prop where
  inside : offset + part.bytes.length ≤ value.bytes.length
  bytes_eq : (value.bytes.drop offset).take part.bytes.length = part.bytes
  aligned : ∀ base, value.type.alignment ∣ base → part.type.alignment ∣ base + offset

/-- An entry of an ordinary type lies in the tuple, in its field. -/
theorem holdsAt_of_tuple {field : Field} {layout : Layout}
    (packing : (Value.tuple host entries).1 = .ok packed)
    (present : entries[position]? = some entry)
    (isField : packed.type.fields[position]? = some field)
    (ordinary : entry.value.type.footprint = .bytes layout) :
    ∃ offset, field.offset? = some offset ∧ packed.HoldsAt offset entry.value := by
  have packed_eq := type_of_tuple packing
  have type_eq := type_of_field packing present isField
  obtain ⟨widthless, layout_eq⟩ := Field.widthless_of_footprint (type_eq ▸ ordinary)
  obtain ⟨whole, known, _⟩ := packed.exists_layout
  rw [CType.layout?_unqualified, packed_eq] at known
  have among : field ∈ (tupleType entries).fields := packed_eq ▸ List.mem_of_getElem? isField
  obtain ⟨offset, placed⟩ := (wellPlaced_placedFields known).placed field among
  have found := slot_of_tuple packing isField widthless placed.offset_eq
  have stored := region_of_tuple packing present found rfl
  obtain ⟨_, slice⟩ := region_eq_ok_iff.mp stored
  rw [← length_region stored] at slice
  obtain ⟨inside, bytes_eq⟩ := Bytes.slice?_eq_some_iff.mp slice
  refine ⟨offset, placed.offset_eq, inside, bytes_eq.symm, fun base aligned => ?_⟩
  have member : Member.ofType entry.name entry.value.type ∈ entries.map fun entry =>
      .ofType entry.name entry.value.type := List.mem_map_of_mem (List.mem_of_getElem? present)
  have alignment : entry.value.type.alignment ∣ packed.type.alignment := by
    simp only [CType.alignment, packed_eq, known, ← type_eq, layout_eq, Option.map_some,
      Option.getD_some]
    exact alignment_dvd_of_member known member ordinary
  refine Nat.dvd_add (Nat.dvd_trans alignment aligned) ?_
  rw [← type_eq]
  exact (placed.aligned widthless).2

/-- Entries of ordinary types lie apart, in their order. -/
theorem apart_of_tuple {first second : Nat} {later : Entry} {field field' : Field}
    {layout layout' : Layout} (packing : (Value.tuple host entries).1 = .ok packed)
    (less : first < second) (isFirst : entries[first]? = some entry)
    (isSecond : entries[second]? = some later) (isField : packed.type.fields[first]? = some field)
    (isField' : packed.type.fields[second]? = some field')
    (ordinary : entry.value.type.footprint = .bytes layout)
    (ordinary' : later.value.type.footprint = .bytes layout') :
    field.offset?.getD 0 + entry.value.bytes.length ≤ field'.offset?.getD 0 := by
  have type_eq := type_of_field packing isFirst isField
  have type_eq' := type_of_field packing isSecond isField'
  obtain ⟨widthless, _⟩ := Field.widthless_of_footprint (type_eq ▸ ordinary)
  obtain ⟨widthless', _⟩ := Field.widthless_of_footprint (type_eq' ▸ ordinary')
  obtain ⟨whole, known, _⟩ := packed.exists_layout
  rw [CType.layout?_unqualified, type_of_tuple packing] at known
  rw [type_of_tuple packing] at isField isField'
  have apart := (wellPlaced_placedFields known).stop_le less isField isField' widthless widthless'
  have size : field.byteCount = entry.value.bytes.length := by
    rw [Field.byteCount, type_eq, entry.value.size_eq, Option.getD_some]
  rwa [size] at apart

end Value

end ForeignCall
