import ForeignCall.Proofs.Ownership.Slots
import ForeignCall.Value.Tuple

/-! # References of values

The events of every operation on values balance the references that the values hold: an operation
that makes a value takes what the value holds, and one that changes a value takes the difference
(`Value.balance_of_writeSlot`).
-/

namespace ForeignCall

/-- A reference at an offset of a value has no bit in common with a slot. -/
def Slot.Spares (slot : Slot) (reference : Nat) : Prop :=
  ∀ bit, 8 * reference ≤ bit → bit < 8 * (reference + pointerSize) → ¬slot.Covers bit

namespace Value

variable {value updated : Value} {place : Place} {slot : Slot} {shape : Shape} {field : Field}
  {host : Hierarchy} {incoming : CType} {bytes : List UInt8} {events : List ReferenceEvent}

/-- How many of the references that a value owns go to an object. -/
def references (value : Value) (object : Nat) : Nat :=
  referencesAt value.bytes value.type.ownedSlots object

/-! ## Parts of a value -/

/-- A field of a structure owns what its retention says, a member of a union nothing. -/
theorem owned_fieldSlot (found : fieldSlot shape field = .ok slot) :
    (shape = .struct → slot.owned = field.ownedSlots) ∧ (shape = .union → slot.owned = []) := by
  unfold fieldSlot at found
  split at found
  next => contradiction
  next =>
    cases found
    constructor
    · rintro rfl
      rfl
    · rintro rfl
      rfl

/-- What a part owns lies in its bytes. -/
theorem owned_inside (found : value.slot place = .ok slot) :
    ∀ inner ∈ slot.owned, inner + pointerSize ≤ slot.byteCount := by
  intro inner present
  rcases slot_cases found with ⟨_, rfl⟩ | ⟨_, element, _, offset, _, _, _, known, rfl⟩ |
    ⟨shape, name, members, index, field, kind, _, isField, isSlot⟩
  · obtain ⟨layout, known, _⟩ := Option.map_eq_some_iff.mp value.size_eq
    have within := CType.ownsInside_ownedSlots value.type layout known inner present
    simpa [Slot.byteCount, whole, known] using within
  · obtain ⟨layout, known, _⟩ := elementOffset?_eq known
    have within := CType.ownsInside_ownedSlots element layout known inner present
    simpa [Slot.byteCount, known] using within
  · have owned := owned_fieldSlot isSlot
    cases shape with
    | union =>
      rw [owned.2 rfl] at present
      contradiction
    | struct =>
      obtain ⟨offset, placed⟩ := (wellPlaced_fields kind).placed field (List.mem_of_getElem? isField)
      obtain ⟨layout, known⟩ := Option.isSome_iff_exists.mp placed.isSized
      have inside := (CType.ownsInside_ownedSlots field.type).memberSlots field.retention
      rw [owned.1 rfl] at present
      have within := inside layout known inner present
      obtain ⟨_, type_eq, _⟩ := fieldSlot_eq_ok isSlot
      simpa [Slot.byteCount, type_eq, known] using within

/-- A bitfield owns nothing. -/
theorem owned_of_bits {range : BitRange} (found : value.slot place = .ok slot)
    (bits : slot.bits = some range) : slot.owned = [] := by
  obtain ⟨shape, _, _, field, _, _, isSlot, isBits, _⟩ := slot_bits found bits
  obtain ⟨asStruct, asUnion⟩ := owned_fieldSlot isSlot
  cases shape with
  | union => exact asUnion rfl
  | struct => rw [asStruct rfl, Field.ownedSlots_of_width isBits]

/-- The references of an element are apart from another element. -/
theorem spares_of_element {element : CType} {layout : Layout} {index other inner : Nat}
    (known : element.layout? = some layout) (different : other ≠ index)
    (within : inner + pointerSize ≤ layout.size) (owned : List Nat) :
    (Slot.mk (layout.size * index) element owned none).Spares (layout.size * other + inner) := by
  intro bit start stop covered
  obtain ⟨first, last⟩ := covered
  simp only [Slot.firstBit, Slot.startBit, Slot.bitCount, Slot.byteCount, known, Option.map_some,
    Option.map_none, Option.getD_some, Option.getD_none] at first last
  rcases Nat.lt_or_gt_of_ne different with less | greater
  · have before := stride_end_le less within
    omega
  · have before := stride_end_le greater (Nat.le_refl layout.size)
    omega

/-- The references of a field are apart from another field. -/
theorem spares_of_field {name : Option String} {members : List Member} {another : Field}
    {index other reference : Nat} (kind : value.type.unqualified = .aggregate .struct name members)
    (isField : (placedFields .struct members)[index]? = some field)
    (isSlot : fieldSlot .struct field = .ok slot) (different : other ≠ index)
    (isOther : (placedFields .struct members)[other]? = some another)
    (present : reference ∈ another.placedSlots) : slot.Spares reference := by
  have wellPlaced := wellPlaced_fields kind
  obtain ⟨first, count⟩ :=
    covers_fieldSlot (wellPlaced.placed field (List.mem_of_getElem? isField)) isSlot
  obtain ⟨offset, placed⟩ := wellPlaced.placed another (List.mem_of_getElem? isOther)
  obtain ⟨ordinary, start, stop⟩ :=
    Field.placedSlots_inside placed (CType.ownsInside_ownedSlots another.type) present
  obtain ⟨firstBit, bitCount⟩ := placed.bits_of_ordinary ordinary
  intro bit after before covered
  obtain ⟨low, high⟩ := covered
  have apart := wellPlaced.apart different isOther isField
  omega

/-- The references of a value are those of a part of it and others that have no bit in common with
the part. -/
theorem ownedSlots_split (found : value.slot place = .ok slot) :
    ∃ before after,
      value.type.ownedSlots = before ++ slot.owned.map (slot.offset + ·) ++ after ∧
        ∀ reference, reference ∈ before ∨ reference ∈ after → slot.Spares reference := by
  rcases slot_cases found with ⟨_, rfl⟩ | ⟨count, element, index, _, kind, _, inside, known, rfl⟩ |
    ⟨shape, name, members, index, field, kind, _, isField, isSlot⟩
  · refine ⟨[], [], ?_, by simp⟩
    simp [whole]
  · obtain ⟨layout, sized, rfl⟩ := elementOffset?_eq known
    have owned : value.type.ownedSlots =
        (List.range count).flatMap fun index => element.ownedSlots.map (layout.size * index + ·) := by
      rw [← CType.ownedSlots_unqualified, kind, CType.ownedSlots, sized]
      exact repeatSlots_eq_flatMap layout.size count element.ownedSlots
    have present : (List.range count)[index]? = some index := by
      rw [List.getElem?_range inside]
    obtain ⟨before, after, split, others⟩ := flatMap_split present fun index =>
      element.ownedSlots.map (layout.size * index + ·)
    refine ⟨before, after, owned.trans split, ?_⟩
    intro reference within
    obtain ⟨other, another, different, isOther, among⟩ := others reference within
    obtain ⟨inner, isSlot, rfl⟩ := List.mem_map.mp among
    obtain ⟨_, rfl⟩ : other < count ∧ other = another := by
      simpa [List.getElem?_eq_some_iff] using isOther
    have bound := CType.ownsInside_ownedSlots element layout sized inner isSlot
    exact spares_of_element sized different bound element.ownedSlots
  · have owned := owned_fieldSlot isSlot
    cases shape with
    | union =>
      have nothing : value.type.ownedSlots = [] := by
        rw [← CType.ownedSlots_unqualified, kind]
        rfl
      exact ⟨[], [], by simp [nothing, owned.2 rfl], by simp⟩
    | struct =>
      obtain ⟨before, after, split, others⟩ := flatMap_split isField Field.placedSlots
      have part : field.placedSlots = slot.owned.map (slot.offset + ·) := by
        rw [Field.placedSlots, (fieldSlot_eq_ok isSlot).1, owned.1 rfl]
      refine ⟨before, after, ?_, ?_⟩
      · rw [← CType.ownedSlots_unqualified, kind, CType.ownedSlots_struct, split, part]
      · intro reference within
        obtain ⟨other, another, different, isOther, among⟩ := others reference within
        exact spares_of_field kind isField isSlot different isOther among

/-! ## Operations -/

@[simp]
theorem balance_copyEvents (value : Value) (object : Nat) :
    balance value.copyEvents object = value.references object := by
  rw [copyEvents, balance_retainSlots, references]

@[simp]
theorem balance_dropEvents (value : Value) (object : Nat) :
    balance value.dropEvents object = -value.references object := by
  rw [dropEvents, balance_releaseSlots, references]

/-- A value of zero bytes holds nothing. -/
theorem references_zeroed {type : CType} (made : zeroed type = .ok value) (object : Nat) :
    value.references object = 0 := by
  obtain ⟨_, count, bytes_eq⟩ := zeroed_eq_ok made
  rw [references, bytes_eq]
  exact referencesAt_zeros count _ object

theorem adopt_eq_ok {type : CType} (made : adopt type bytes = .ok value) :
    value.type = type ∧ value.bytes = bytes := by
  unfold adopt at made
  split at made
  next => contradiction
  next =>
    split at made
    next =>
      split at made
      next =>
        cases made
        exact ⟨rfl, rfl⟩
      next => contradiction
    next => contradiction

theorem new_eq_ok {type : CType} (made : new type bytes = .ok (value, events)) :
    value.type = type ∧ value.bytes = bytes ∧ events = retainSlots bytes type.ownedSlots := by
  unfold new at made
  cases adopted : adopt type bytes with
  | error error =>
    rw [adopted] at made
    contradiction
  | ok result =>
    rw [adopted] at made
    cases made
    obtain ⟨type_eq, bytes_eq⟩ := adopt_eq_ok adopted
    exact ⟨type_eq, bytes_eq, rfl⟩

/-- A new value takes the references that it holds. -/
theorem balance_new {type : CType} (made : new type bytes = .ok (value, events)) (object : Nat) :
    balance events object = value.references object := by
  obtain ⟨type_eq, bytes_eq, rfl⟩ := new_eq_ok made
  rw [balance_retainSlots, references, type_eq, bytes_eq]

theorem balance_ofRegion {type : CType} (made : ofRegion type bytes = .ok (value, events))
    (object : Nat) : balance events object = value.references object := by
  unfold ofRegion at made
  split at made
  next => contradiction
  next => exact balance_new made object

theorem balance_extract {part : Value} (made : value.extract place = .ok (part, events))
    (object : Nat) : balance events object = part.references object := by
  unfold extract at made
  cases found : value.slot place with
  | error error =>
    rw [found] at made
    contradiction
  | ok slot =>
    cases isRegion : value.region slot with
    | error error =>
      rw [found, Except.bind, isRegion] at made
      contradiction
    | ok region =>
      rw [found, Except.bind, isRegion] at made
      exact balance_new made object

/-- The references of a value, by those of a part. -/
theorem references_eq_add {before after : List Nat} {region : List UInt8}
    (found : value.slot place = .ok slot) (isRegion : value.region slot = .ok region)
    (split : value.type.ownedSlots = before ++ slot.owned.map (slot.offset + ·) ++ after)
    (object : Nat) :
    value.references object =
      referencesAt value.bytes before object + referencesAt region slot.owned object +
        referencesAt value.bytes after object := by
  obtain ⟨_, slice⟩ := region_eq_ok_iff.mp isRegion
  rw [references, split, referencesAt_append, referencesAt_append,
    referencesAt_slice? slice (owned_inside found)]

/-- A write takes the references that the value gains and drops those that it loses. -/
theorem balance_of_writeSlot (found : value.slot place = .ok slot)
    (written : value.writeSlot host slot bytes incoming = .ok (updated, events)) (object : Nat) :
    balance events object = updated.references object - value.references object := by
  have fits := slot_fits found
  obtain ⟨before, after, split, others⟩ := ownedSlots_split found
  obtain ⟨_, type_eq, old, isOld, same, _, events_eq⟩ := writeSlot_eq_ok written
  obtain ⟨region, isRegion, _⟩ := content_of_writeSlot fits written
  have found' : updated.slot place = .ok slot := by rw [slot_congr type_eq, found]
  have split' := type_eq ▸ split
  have kept : ∀ reference, reference ∈ before ∨ reference ∈ after →
      objectAt? updated.bytes reference = objectAt? value.bytes reference := by
    intro reference among
    apply objectAt?_congr (length_bytes_of_type_eq type_eq)
    intro bit start stop
    rw [bitAt_of_writeSlot fits written, if_neg (others reference among bit start stop)]
  have keptBefore := referencesAt_congr (fun reference present => kept reference (.inl present)) object
  have keptAfter := referencesAt_congr (fun reference present => kept reference (.inr present)) object
  have change : balance events object =
      referencesAt region slot.owned object - referencesAt old slot.owned object := by
    cases bits : slot.bits with
    | some range =>
      rw [events_eq, Slot.writeEvents, bits, owned_of_bits found bits]
      simp [referencesAt]
    | none =>
      have stored := region_of_writeSlot bits written
      rw [isRegion, Except.ok.injEq] at stored
      rw [events_eq, Slot.writeEvents, bits, stored, balance_append, balance_retainSlots,
        balance_releaseSlots]
      omega
  rw [change, references_eq_add found isOld split, references_eq_add found' isRegion split',
    keptBefore, keptAfter]
  omega

theorem balance_write (written : value.write host place bytes incoming = .ok (updated, events))
    (object : Nat) : balance events object = updated.references object - value.references object := by
  obtain ⟨slot, found, written⟩ := write_eq_ok written
  exact balance_of_writeSlot found written object

/-! ## Tuples -/

def entryReferences : List Entry → Nat → Nat
  | [], _ => 0
  | entry :: entries, object => entry.value.references object + entryReferences entries object

theorem entryReferences_append (earlier : List Entry) (entry : Entry) (object : Nat) :
    entryReferences (earlier ++ [entry]) object =
      entryReferences earlier object + entry.value.references object := by
  induction earlier with
  | nil => simp [entryReferences]
  | cons first earlier ih =>
    rw [List.cons_append, entryReferences, entryReferences, ih, Nat.add_assoc]

theorem entryReferences_rename (name : Option String) (entries : List Entry) (object : Nat) :
    entryReferences (entries.map fun entry => ⟨name, entry.value⟩) object =
      entryReferences entries object := by
  induction entries with
  | nil => rfl
  | cons entry entries ih => rw [List.map_cons, entryReferences, entryReferences, ih]

/-- The references to an object that an operation gives its caller. -/
def resultReferences {ε : Type} (result : Except ε Value) (object : Nat) : Nat :=
  match result with
  | .ok value => value.references object
  | .error _ => 0

/-- The tuple that storing entries leaves behind, packed or not. -/
def stored : Except (ValueError × Value) Value → Value
  | .ok packed => packed
  | .error (_, partly) => partly

@[simp]
theorem balance_dropEntries (entries : List Entry) (object : Nat) :
    balance (dropEntries entries) object = -entryReferences entries object := by
  induction entries with
  | nil => rfl
  | cons entry entries ih =>
    rw [dropEntries] at ih ⊢
    rw [List.flatMap_cons, balance_append, balance_dropEvents, ih]
    rw [entryReferences]
    omega

/-- Storing entries takes what the tuple gains, whether or not it comes to its end. -/
theorem balance_storeEntries (host : Hierarchy) (tuple : Value) (index : Nat) (entries : List Entry)
    (object : Nat) :
    balance (storeEntries host tuple index entries).2 object =
      (stored (storeEntries host tuple index entries).1).references object -
        tuple.references object := by
  induction entries generalizing tuple index with
  | nil => simp [storeEntries, stored]
  | cons entry entries ih =>
    cases written : tuple.store host (.index index) entry.value with
    | error error => simp [storeEntries, written, stored]
    | ok result =>
      obtain ⟨next, events⟩ := result
      have first := balance_write written object
      have rest := ih next (index + 1)
      simp only [storeEntries, written, balance_append, first, rest]
      omega

/-- Packing entries ends them; of their references only those of the tuple remain. -/
theorem balance_tuple (host : Hierarchy) (entries : List Entry) (object : Nat) :
    balance (tuple host entries).2 object =
      resultReferences (tuple host entries).1 object - entryReferences entries object := by
  unfold tuple
  cases made : zeroed (tupleType entries) with
  | error error => simp [resultReferences]
  | ok empty =>
    have nothing := references_zeroed made object
    have balanced := balance_storeEntries host empty 0 entries object
    rcases result : storeEntries host empty 0 entries with ⟨packed | packed, events⟩
    · rw [result] at balanced
      simp only [stored] at balanced
      simp only [result, resultReferences, balance_append, balance_dropEvents, balance_dropEntries]
      omega
    · rw [result] at balanced
      simp only [stored] at balanced
      simp only [result, resultReferences, balance_append, balance_dropEntries]
      omega

end Value

end ForeignCall
