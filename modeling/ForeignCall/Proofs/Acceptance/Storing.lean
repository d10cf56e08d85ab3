import Mathlib.Data.List.Basic
import ForeignCall.Proofs.Acceptance.Representation
import ForeignCall.Proofs.Ownership.Values

/-! # Storing accepted values

A value fits every slot whose type accepts its type, so a store cannot fail over the size
(`Value.store_of_accepts`). What a store takes is what the end of the changed value drops again in the
slot, and what it drops is what the end of the old value would have dropped there: both follow the
slot's own references (`Value.replaces_of_writeSlot`).
-/

namespace ForeignCall

/-! ## Objects in bytes -/

theorem objectsAt_append (bytes : List UInt8) (earlier later : List Nat) :
    objectsAt bytes (earlier ++ later) = objectsAt bytes earlier ++ objectsAt bytes later :=
  List.filterMap_append

theorem objectsAt_congr {left right : List UInt8} {slots : List Nat}
    (same : ∀ slot ∈ slots, objectAt? left slot = objectAt? right slot) :
    objectsAt left slots = objectsAt right slots :=
  List.filterMap_congr same

/-- The objects of a region are those at its place in the whole. -/
theorem objectsAt_slice? {bytes region : List UInt8} {offset count : Nat} {slots : List Nat}
    (found : Bytes.slice? bytes offset count = some region)
    (inside : ∀ slot ∈ slots, slot + pointerSize ≤ count) :
    objectsAt bytes (slots.map (offset + ·)) = objectsAt region slots := by
  rw [objectsAt, List.filterMap_map]
  apply List.filterMap_congr
  intro slot present
  exact (objectAt?_slice? found (inside slot present)).symm

/-- What a slot owns of a value whose owned slots are given: all of it; of a reference in a field, what
the field's retention says; and in a union nothing. -/
def Slot.OwnsOf (slot : Slot) (owned : List Nat) : Prop :=
  slot.owned = owned ∨ slot.owned = [] ∨
    ∃ retention, slot.owned = memberSlots slot.type retention owned

namespace Value

variable {value updated source : Value} {place : Place} {slot : Slot} {host : Hierarchy}
  {incoming : CType} {bytes : List UInt8} {events : List ReferenceEvent}

/-- The references in a slot of a value make way for those in new bytes. The events take the new ones
and drop the old ones; the end of the changed value drops the new ones instead of the old ones, and
otherwise does what the end of the old value does. -/
def Replaces (value : Value) (slot : Slot) (bytes : List UInt8) (updated : Value)
    (events : List ReferenceEvent) : Prop :=
  ∃ region before after, value.region slot = .ok region ∧
    events = retainSlots bytes slot.owned ++ releaseSlots region slot.owned ∧
    value.dropEvents = releaseSlots value.bytes before ++ releaseSlots region slot.owned ++
      releaseSlots value.bytes after ∧
    updated.dropEvents = releaseSlots value.bytes before ++ releaseSlots bytes slot.owned ++
      releaseSlots value.bytes after

/-- The end of a value drops the references of a part among those of the others. -/
theorem dropEvents_split {before after : List Nat} {region : List UInt8}
    (found : value.slot place = .ok slot) (isRegion : value.region slot = .ok region)
    (split : value.type.ownedSlots = before ++ slot.owned.map (slot.offset + ·) ++ after) :
    value.dropEvents = releaseSlots value.bytes before ++ releaseSlots region slot.owned ++
      releaseSlots value.bytes after := by
  obtain ⟨_, slice⟩ := region_eq_ok_iff.mp isRegion
  have part := objectsAt_slice? slice (owned_inside found)
  simp only [dropEvents, releaseSlots, split, objectsAt_append, part, List.map_append]

/-- Outside its slot a write leaves the references of a value as they are. -/
theorem objectAt?_of_writeSlot {reference : Nat} (found : value.slot place = .ok slot)
    (written : value.writeSlot host slot bytes incoming = .ok (updated, events))
    (spared : slot.Spares reference) :
    objectAt? updated.bytes reference = objectAt? value.bytes reference := by
  obtain ⟨_, type_eq, _⟩ := writeSlot_eq_ok written
  apply objectAt?_congr (length_bytes_of_type_eq type_eq)
  intro bit start stop
  rw [bitAt_of_writeSlot (slot_fits found) written, if_neg (spared bit start stop)]

theorem replaces_of_writeSlot (found : value.slot place = .ok slot)
    (written : value.writeSlot host slot bytes incoming = .ok (updated, events)) :
    value.Replaces slot bytes updated events := by
  obtain ⟨before, after, split, others⟩ := ownedSlots_split found
  obtain ⟨_, type_eq, old, isOld, _, _, events_eq⟩ := writeSlot_eq_ok written
  obtain ⟨region, isRegion, _⟩ := content_of_writeSlot (slot_fits found) written
  have kept : ∀ references : List Nat, (∀ reference ∈ references, slot.Spares reference) →
      releaseSlots updated.bytes references = releaseSlots value.bytes references := by
    intro references spared
    rw [releaseSlots, releaseSlots, objectsAt_congr fun reference present =>
      objectAt?_of_writeSlot found written (spared reference present)]
  have found' : updated.slot place = .ok slot := by rw [slot_congr type_eq, found]
  have ends := dropEvents_split found' isRegion (type_eq ▸ split)
  rw [kept before fun reference present => others reference (.inl present),
    kept after fun reference present => others reference (.inr present)] at ends
  refine ⟨old, before, after, isOld, ?_, dropEvents_split found isOld split, ?_⟩
  · cases bits : slot.bits with
    | some range => simp [events_eq, Slot.writeEvents, bits, owned_of_bits found bits, retainSlots,
        releaseSlots, objectsAt]
    | none => rw [events_eq, Slot.writeEvents, bits]
  · cases bits : slot.bits with
    | some range => simpa [owned_of_bits found bits, releaseSlots, objectsAt] using ends
    | none =>
      have stored := region_of_writeSlot bits written
      rw [isRegion, Except.ok.injEq] at stored
      rwa [stored] at ends

/-- A slot owns of a value that its type accepts what the value's own type says, as far as its field
or union does not say otherwise. -/
theorem ownsOf_of_accepts (found : value.slot place = .ok slot)
    (accepted : slot.type.accepts host source.type = true) :
    slot.OwnsOf source.type.ownedSlots := by
  rw [← (CType.representation_of_accepts accepted).2.1]
  rcases slot_cases found with ⟨_, rfl⟩ | ⟨_, _, _, _, _, _, _, _, rfl⟩ |
    ⟨shape, _, _, _, field, _, _, _, isSlot⟩
  · exact .inl rfl
  · exact .inl rfl
  · obtain ⟨asStruct, asUnion⟩ := owned_fieldSlot isSlot
    obtain ⟨_, type_eq, _⟩ := fieldSlot_eq_ok isSlot
    cases shape with
    | union => exact .inr (.inl (asUnion rfl))
    | struct => exact .inr (.inr ⟨field.retention, by rw [asStruct rfl, type_eq, Field.ownedSlots]⟩)

/-- A value is stored in a slot whose type accepts its type, unless the slot has no bytes. -/
theorem store_of_accepts (found : value.slot place = .ok slot)
    (accepted : slot.type.accepts host source.type = true) :
    (∃ updated events, value.store host place source = .ok (updated, events)) ∨
      value.store host place source = .error (.unsizedType slot.type) ∧
        value.region slot = .error (.unsizedType slot.type) := by
  obtain ⟨layout, known, size⟩ := Option.map_eq_some_iff.mp source.size_eq
  have sized : slot.type.layout? = some layout :=
    (CType.representation_of_accepts accepted).1.trans known
  have compatible : slot.type.isCompatible host source.type = true := by
    simp only [CType.isCompatible, accepted, Bool.true_or]
  have store_eq : value.store host place source =
      value.writeSlot host slot source.bytes source.type := by
    rw [store, write, found]
    rfl
  rw [store_eq, writeSlot, if_pos compatible, region]
  split
  next unsized =>
    rw [sized] at unsized
    contradiction
  next other isLayout =>
    obtain rfl : layout = other := Option.some.inj (sized.symm.trans isLayout)
    split
    next missing => exact .inr ⟨rfl, by simp only [missing]⟩
    next region present =>
      rw [dif_pos size.symm]
      exact .inl ⟨_, _, rfl⟩

end Value

/-- Where one type accepts another, whatever the host knows, both have the same layout or none, own
references at the same places, and are passed as the same element or not at all. So a value stored in
a slot that accepts its type never has the wrong size, and the references taken for it are those that
the slot drops again. -/
theorem accepts_preserves_representation (host : Hierarchy) :
    (∀ target source : CType, target.accepts host source = true →
      target.layout? = source.layout? ∧ target.ownedSlots = source.ownedSlots ∧
        target.element = source.element) ∧
    ∀ (value source : Value) (place : Place) (slot : Slot), value.slot place = .ok slot →
      slot.type.accepts host source.type = true →
        slot.OwnsOf source.type.ownedSlots ∧
        ((∃ updated events, value.store host place source = .ok (updated, events) ∧
            value.Replaces slot source.bytes updated events) ∨
          value.store host place source = .error (.unsizedType slot.type) ∧
            value.region slot = .error (.unsizedType slot.type)) := by
  refine ⟨fun target source accepted => CType.representation_of_accepts accepted, ?_⟩
  intro value source place slot found accepted
  refine ⟨Value.ownsOf_of_accepts found accepted, ?_⟩
  rcases Value.store_of_accepts found accepted with ⟨updated, events, stored⟩ | failed
  · obtain ⟨other, isSlot, written⟩ := Value.write_eq_ok stored
    obtain rfl : slot = other := Except.ok.inj (found.symm.trans isSlot)
    exact .inl ⟨updated, events, stored, Value.replaces_of_writeSlot found written⟩
  · exact .inr failed

/-- A host with one class under another. -/
def leafHierarchy : Hierarchy where
  isSubclass := fun actual expected => actual = "Leaf" && expected = "Node"
  conformsTo := fun _ _ => false

def constNodeType : CType := .wrapped .const (.object (some "Node") [])

def nodeHolder : Value :=
  ⟨.aggregate .struct none [.ofType (some "node") constNodeType], [32, 0, 0, 0, 0, 0, 0, 0], by decide⟩

def leafValue : Value := ⟨.object (some "Leaf") [], [48, 0, 0, 0, 0, 0, 0, 0], by decide⟩

theorem accepts_preserves_representation_leaf :
    constNodeType.accepts leafHierarchy leafValue.type = true ∧
      (constNodeType.layout? = leafValue.type.layout? ∧ constNodeType.ownedSlots = leafValue.type.ownedSlots ∧
        constNodeType.element = leafValue.type.element) ∧
      nodeHolder.slot (.field "node") = .ok ⟨0, constNodeType, [0], none⟩ ∧
      ∃ updated events,
        nodeHolder.store leafHierarchy (.field "node") leafValue = .ok (updated, events) ∧
          nodeHolder.Replaces ⟨0, constNodeType, [0], none⟩ leafValue.bytes updated events := by
  have accepted : constNodeType.accepts leafHierarchy leafValue.type = true := by decide
  have found : nodeHolder.slot (.field "node") = .ok ⟨0, constNodeType, [0], none⟩ := by cbv
  have present : nodeHolder.region ⟨0, constNodeType, [0], none⟩ = .ok nodeHolder.bytes := by cbv
  obtain ⟨kept, stores⟩ := accepts_preserves_representation leafHierarchy
  refine ⟨accepted, kept _ _ accepted, found, ?_⟩
  rcases (stores _ _ _ _ found accepted).2 with stored | ⟨_, missing⟩
  · exact stored
  · rw [present] at missing
    contradiction

end ForeignCall
