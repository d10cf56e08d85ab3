import ForeignCall.Proofs.Acceptance.Preorder
import ForeignCall.Proofs.Acceptance.Storing
import ForeignCall.Proofs.Layout.Representable
import ForeignCall.Proofs.Value.Packing

/-! # Unpacked entries

Packing loses nothing. A tuple begins as zero bytes, and while it is filled its fields are of two
kinds: those that have their entries already, and those that still hold zeros
(`Value.IsBlankFrom`). So every store finds a field of its entry's own type that holds no reference,
and cannot fail (`Value.store_entry`). In the end each field reads back as its entry, and the tuple has
taken the references that the end of the entries drops.
-/

namespace ForeignCall

/-- A member with the default ownership of its type owns what the type does. -/
theorem memberSlots_defaultRetention (type : CType) :
    memberSlots type type.defaultRetention type.ownedSlots = type.ownedSlots := by
  unfold memberSlots
  split
  next counted =>
    rw [← CType.ownedSlots_unqualified, CType.defaultRetention]
    cases kind : type.unqualified <;>
      simp_all [CType.isObject, CType.ownedSlots, Retention.isOwned]
  next => rfl

theorem Field.ownedSlots_of_toMember {field : Field} {name : Option String} {type : CType}
    (isMember : field.toMember = .ofType name type) : field.ownedSlots = type.ownedSlots := by
  have type_eq : field.type = type := congrArg Member.type isMember
  have retention_eq : field.retention = type.defaultRetention := congrArg Member.retention isMember
  rw [ownedSlots, type_eq, retention_eq, memberSlots_defaultRetention]

theorem Field.width?_of_isBitfield {field : Field} (ordinary : field.type.isBitfield = false) :
    field.width? = none := by
  cases isBits : field.width? with
  | none => rfl
  | some width =>
    rw [type_of_width isBits] at ordinary
    contradiction

namespace Value

variable {host : Hierarchy} {value tuple packed : Value} {entries : List Entry} {entry : Entry}
variable {index position : Nat}

/-! ## Values of their own bytes -/

/-- The bytes of a value make the value again. -/
theorem new_self (small : value.bytes.length < allocationLimit) :
    new value.type value.bytes = .ok (value, value.copyEvents) := by
  obtain ⟨layout, known, size⟩ := Option.map_eq_some_iff.mp value.size_eq
  have adopted : adopt value.type value.bytes = .ok value := by
    unfold adopt
    split
    next absent =>
      rw [known] at absent
      contradiction
    next other found =>
      obtain rfl : layout = other := Option.some.inj (known.symm.trans found)
      rw [if_pos (size ▸ small), dif_pos size.symm]
  rw [new, adopted]
  rfl

/-! ## The field of an entry -/

/-- A slot of a structure is made for a value: it has the value's type, owns what the value does, and
has bytes. -/
structure Houses (tuple : Value) (slot : Slot) (value : Value) : Prop where
  type_eq : slot.type = value.type
  owned_eq : slot.owned = value.type.ownedSlots
  bits_eq : slot.bits = none
  isPresent : ∃ region, tuple.region slot = .ok region
  length_le : value.bytes.length ≤ tuple.bytes.length

/-- The field of an entry is made for it. -/
theorem houses_entry (type_eq : tuple.type = tupleType entries)
    (present : entries[position]? = some entry) (ordinary : entry.value.type.isBitfield = false) :
    ∃ slot, tuple.slot (.index position) = .ok slot ∧ tuple.Houses slot entry.value := by
  have kind : tuple.type.unqualified = tupleType entries := by
    rw [type_eq]
    rfl
  have members := map_toMember_placedFields .struct
    (entries.map fun entry => Member.ofType entry.name entry.value.type)
  have member := congrArg (·[position]?) members
  simp only [List.getElem?_map, present, Option.map_some] at member
  obtain ⟨field, isField, isMember⟩ := Option.map_eq_some_iff.mp member
  have fieldType : field.type = entry.value.type := congrArg Member.type isMember
  have widthless := Field.width?_of_isBitfield (fieldType ▸ ordinary)
  obtain ⟨offset, placed⟩ :=
    (wellPlaced_fields kind).placed field (List.mem_of_getElem? isField)
  have size : field.byteCount = entry.value.bytes.length := by
    rw [Field.byteCount, fieldType, entry.value.size_eq, Option.getD_some]
  have inside : offset + field.byteCount ≤ tuple.bytes.length :=
    placed.contained (by simp [widthless])
  have found := slot_of_field kind isField widthless placed.offset_eq
  obtain ⟨region, slice⟩ : ∃ region, Bytes.slice? tuple.bytes offset field.byteCount = some region :=
    ⟨_, Bytes.slice?_eq_some_iff.mpr ⟨inside, rfl⟩⟩
  refine ⟨_, found, fieldType, Field.ownedSlots_of_toMember isMember, rfl, ⟨region, ?_⟩, by omega⟩
  exact region_eq_ok_iff.mpr ⟨placed.isSized, slice⟩

/-! ## Filling a tuple -/

/-- The fields from an index on hold zero bytes. -/
def IsBlankFrom (tuple : Value) (index : Nat) : Prop :=
  ∀ position slot region, index ≤ position → tuple.slot (.index position) = .ok slot →
    slot.bits = none → tuple.region slot = .ok region → ∃ count, region = Bytes.zeros count

theorem isBlankFrom_zeroed {type : CType} {empty : Value} (made : zeroed type = .ok empty) :
    empty.IsBlankFrom 0 := by
  intro position slot region _ _ _ isRegion
  obtain ⟨_, count, bytes_eq⟩ := zeroed_eq_ok made
  obtain ⟨_, slice⟩ := region_eq_ok_iff.mp isRegion
  obtain ⟨_, rfl⟩ := Bytes.slice?_eq_some_iff.mp slice
  rw [bytes_eq, Bytes.zeros, List.drop_replicate, List.take_replicate]
  exact ⟨_, rfl⟩

theorem releaseSlots_zeros (count : Nat) (slots : List Nat) :
    releaseSlots (Bytes.zeros count) slots = [] := by
  simp [releaseSlots, objectsAt, objectAt?_zeros]

/-- A write to the first blank field leaves those after it blank. -/
theorem IsBlankFrom.of_writeSlot {next : Value} {slot : Slot} {bytes : List UInt8} {incoming : CType}
    {events : List ReferenceEvent} (blank : tuple.IsBlankFrom index) (isStructure : tuple.IsStructure)
    (found : tuple.slot (.index index) = .ok slot)
    (written : tuple.writeSlot host slot bytes incoming = .ok (next, events)) :
    next.IsBlankFrom (index + 1) := by
  intro position other region behind isOther ordinary isRegion
  obtain ⟨_, next_eq, _⟩ := writeSlot_eq_ok written
  rw [slot_congr next_eq] at isOther
  have different : index ≠ position := Nat.ne_of_lt behind
  rw [region_of_other_field isStructure found written isOther different ordinary] at isRegion
  exact blank position other region (Nat.le_of_succ_le behind) isOther ordinary isRegion

/-- An entry is stored in its blank field: only its own references are taken, and the fields after it
stay blank. -/
theorem store_entry (host : Hierarchy) (type_eq : tuple.type = tupleType entries)
    (blank : tuple.IsBlankFrom index) (present : entries[index]? = some entry)
    (ordinary : entry.value.type.isBitfield = false) :
    ∃ next, tuple.store host (.index index) entry.value = .ok (next, entry.value.copyEvents) ∧
      next.type = tuple.type ∧ next.IsBlankFrom (index + 1) := by
  obtain ⟨slot, found, houses⟩ := houses_entry type_eq present ordinary
  obtain ⟨old, isOld⟩ := houses.isPresent
  have accepted : slot.type.accepts host entry.value.type = true := by
    rw [houses.type_eq]
    exact CType.accepts_self host _
  rcases store_of_accepts found accepted with ⟨next, events, stored⟩ | ⟨_, missing⟩
  · obtain ⟨other, isSlot, written⟩ := write_eq_ok stored
    obtain rfl : slot = other := Except.ok.inj (found.symm.trans isSlot)
    obtain ⟨_, next_eq, region, isRegion, _, _, events_eq⟩ := writeSlot_eq_ok written
    obtain ⟨count, rfl⟩ := blank index slot region (Nat.le_refl _) found houses.bits_eq isRegion
    have copies : events = entry.value.copyEvents := by
      rw [events_eq, Slot.writeEvents, houses.bits_eq, houses.owned_eq]
      simp only [releaseSlots_zeros, List.append_nil, copyEvents]
    have isStructure := isStructure_of_type_eq type_eq
    exact ⟨next, by rw [stored, copies], next_eq, blank.of_writeSlot isStructure found written⟩
  · rw [isOld] at missing
    contradiction

def copyEntries (entries : List Entry) : List ReferenceEvent :=
  entries.flatMap fun entry => entry.value.copyEvents

theorem balance_copyEntries (entries : List Entry) (object : Nat) :
    balance (copyEntries entries) object = entryReferences entries object := by
  induction entries with
  | nil => rfl
  | cons entry entries ih =>
    rw [copyEntries] at ih ⊢
    rw [List.flatMap_cons, balance_append, ih, copyEvents, balance_retainSlots, entryReferences,
      Int.natCast_add]
    rfl

/-- Entries are stored one after the other in blank fields, with the references of copies. -/
theorem storeEntries_of_isBlankFrom (host : Hierarchy) {rest : List Entry}
    (type_eq : tuple.type = tupleType entries) (isRest : entries.drop index = rest)
    (blank : tuple.IsBlankFrom index)
    (ordinary : ∀ entry ∈ rest, entry.value.type.isBitfield = false) :
    ∃ packed, storeEntries host tuple index rest = (.ok packed, copyEntries rest) := by
  induction rest generalizing tuple index with
  | nil => exact ⟨tuple, rfl⟩
  | cons entry rest ih =>
    obtain ⟨first, others⟩ := List.forall_mem_cons.mp ordinary
    have present : entries[index]? = some entry := by
      rw [← List.head?_drop, isRest, List.head?_cons]
    have behind : entries.drop (index + 1) = rest := by
      rw [← List.tail_drop, isRest, List.tail_cons]
    obtain ⟨next, stored, next_eq, blank⟩ := store_entry host type_eq blank present first
    obtain ⟨packed, storing⟩ := ih (next_eq.trans type_eq) behind blank others
    refine ⟨packed, ?_⟩
    simp only [storeEntries, stored, storing]
    rfl

/-- Room for the entries is room for the tuple. -/
theorem exists_zeroed
    (granted : ∀ layout, (tupleType entries).exactLayout? = some layout →
      layout.size < allocationLimit) :
    ∃ empty, zeroed (tupleType entries) = .ok empty ∧ empty.bytes.length < allocationLimit := by
  have sized : ∀ member ∈ entries.map fun entry => Member.ofType entry.name entry.value.type,
      member.type.isSized = true := by
    intro member present
    obtain ⟨entry, _, rfl⟩ := List.mem_map.mp present
    obtain ⟨layout, known, _⟩ := Option.map_eq_some_iff.mp entry.value.size_eq
    simp [CType.isSized, Member.ofType, known]
  obtain ⟨layout, exact, fitting⟩ := CType.exists_exactLayout?_aggregate .struct none sized
  have small := granted layout exact
  have known : (tupleType entries).layout? = some layout :=
    fitting (Nat.lt_trans small (by decide))
  unfold zeroed
  split
  next absent =>
    rw [known] at absent
    contradiction
  next other found =>
    obtain rfl : layout = other := Option.some.inj (known.symm.trans found)
    rw [if_pos small]
    exact ⟨_, rfl, by simpa using small⟩

/-- An entry is read back as it was, with references of its own. -/
theorem extract_of_tuple (packing : (Value.tuple host entries).1 = .ok packed)
    (present : entries[position]? = some entry) (ordinary : entry.value.type.isBitfield = false)
    (small : packed.bytes.length < allocationLimit) :
    packed.extract (.index position) = .ok (entry.value, entry.value.copyEvents) := by
  obtain ⟨slot, found, houses⟩ := houses_entry (type_of_tuple packing) present ordinary
  have stored := region_of_tuple packing present found houses.bits_eq
  have fits := Nat.lt_of_le_of_lt houses.length_le small
  simp only [extract, found, Except.bind, stored, Slot.content, houses.bits_eq, houses.type_eq]
  exact new_self fits

/-- Values none of which is a bitfield are packed without loss, if there is room for them: packing
succeeds with an anonymous structure of these fields in this order, each entry is read back as it was,
and the tuple takes over the references that the entries give up. -/
theorem tuple_unpacks (host : Hierarchy) (entries : List Entry)
    (ordinary : ∀ entry ∈ entries, entry.value.type.isBitfield = false)
    (granted : ∀ layout, (tupleType entries).exactLayout? = some layout →
      layout.size < allocationLimit) :
    ∃ packed, Value.tuple host entries = (.ok packed, copyEntries entries ++ dropEntries entries) ∧
      packed.type = .aggregate .struct none
        (entries.map fun entry => .ofType entry.name entry.value.type) ∧
      packed.length? = some entries.length ∧
      (∀ index entry, entries[index]? = some entry →
        packed.extract (.index index) = .ok (entry.value, entry.value.copyEvents)) ∧
      ∀ object, packed.references object = entryReferences entries object ∧
        balance (copyEntries entries ++ dropEntries entries) object = 0 := by
  obtain ⟨empty, made, small⟩ := exists_zeroed granted
  obtain ⟨packed, storing⟩ := storeEntries_of_isBlankFrom host (zeroed_eq_ok made).1
    List.drop_zero (isBlankFrom_zeroed made) ordinary
  have packing : Value.tuple host entries =
      (.ok packed, copyEntries entries ++ dropEntries entries) := by
    simp only [Value.tuple, made, storing]
  have packed_eq := type_of_tuple (congrArg Prod.fst packing)
  have length_eq : packed.bytes.length = empty.bytes.length :=
    length_bytes_of_type_eq (packed_eq.trans (zeroed_eq_ok made).1.symm)
  have balanced : ∀ object, balance (copyEntries entries ++ dropEntries entries) object = 0 := by
    intro object
    rw [balance_append, balance_copyEntries, balance_dropEntries]
    omega
  refine ⟨packed, packing, packed_eq, ?_, fun index entry present => ?_, fun object => ⟨?_, ?_⟩⟩
  · simp [length?, packed_eq, tupleType, CType.unqualified]
  · exact extract_of_tuple (congrArg Prod.fst packing) present
      (ordinary entry (List.mem_of_getElem? present)) (length_eq ▸ small)
  · have events := balance_tuple host entries object
    rw [packing] at events
    simp only [balanced, resultReferences] at events
    omega
  · exact balanced object

/-- A node among values without bytes: nothing, a structure without members, and arrays of no elements
in the middle and at the end. -/
def sparseEntries : List Entry :=
  [⟨none, .void⟩, ⟨some "node", leafValue⟩, ⟨none, ⟨.aggregate .struct none [], [], rfl⟩⟩,
    ⟨none, ⟨.array 0 (.scalar .double), [], rfl⟩⟩, ⟨none, ⟨.scalar .char, [7], rfl⟩⟩,
    ⟨some "tail", ⟨.array 0 (.scalar .int), [], rfl⟩⟩]

theorem tuple_unpacks_sparse :
    (∀ entry ∈ sparseEntries, entry.value.type.isBitfield = false) ∧
      (tupleType sparseEntries).exactLayout? = some ⟨16, 8⟩ ∧
      ∃ packed, Value.tuple leafHierarchy sparseEntries = (.ok packed, [.retain 48, .release 48]) ∧
        packed.length? = some 6 ∧ packed.extract (.index 0) = .ok (.void, []) ∧
        packed.extract (.index 1) = .ok (leafValue, [.retain 48]) ∧
        packed.extract (.index 5) = .ok (⟨.array 0 (.scalar .int), [], rfl⟩, []) := by
  have ordinary : ∀ entry ∈ sparseEntries, entry.value.type.isBitfield = false := by decide
  have exact : (tupleType sparseEntries).exactLayout? = some ⟨16, 8⟩ := by decide
  obtain ⟨packed, packing, _, length, entries, _⟩ :=
    tuple_unpacks leafHierarchy sparseEntries ordinary fun layout known => by
      obtain rfl : ⟨16, 8⟩ = layout := Option.some.inj (exact.symm.trans known)
      decide
  have events : copyEntries sparseEntries ++ dropEntries sparseEntries = [.retain 48, .release 48] := by
    decide
  refine ⟨ordinary, exact, packed, ?_, length, entries 0 _ rfl, ?_, entries 5 _ rfl⟩
  · rw [packing, events]
  · exact entries 1 _ rfl

end Value

end ForeignCall
