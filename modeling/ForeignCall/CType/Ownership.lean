import ForeignCall.CType.Field

/-! # Owned references

A value of some types owns references to objects. `CType.ownedSlots` lists the byte offsets at which
they are stored. Objects and blocks are owned wherever the type is used as it is; a member of a
structure is owned if its retention says so. Pointers and unions own nothing: a pointer's target
lies elsewhere, and which member of a union is alive is not known.
-/

namespace ForeignCall

/-- The slots of `count` elements that are `stride` bytes apart. -/
def repeatSlots (stride count : Nat) (slots : List Nat) : List Nat :=
  if slots.isEmpty then [] else
    (List.range count).flatMap fun index => slots.map (index * stride + ·)

def placeSlots (positions : List (Option Position)) (slots : List (List Nat)) : List Nat :=
  (positions.zip slots).flatMap fun
    | (some position, slots) => slots.map (position.offset + ·)
    | (none, _) => []

/-- The slots of a member, given those of its type: the member's own retention decides on an object,
a class or a block, and every other type on its own. -/
def memberSlots (type : CType) (retention : Retention) (slots : List Nat) : List Nat :=
  if type.unqualified.isObject then if retention.isOwned then [0] else [] else slots

namespace CType

mutual

/-- The byte offsets of the references that a value of a type owns. -/
def ownedSlots : CType → List Nat
  | object _ _ | block _ => [0]
  | wrapped .const inner => ownedSlots inner
  | wrapped .atomic inner => ownedSlots inner
  | array count element =>
    match element.layout? with
    | some layout => repeatSlots layout.size count (ownedSlots element)
    | none => []
  | aggregate .struct _ members =>
    placeSlots (Placement.ofStruct (footprints members)).positions (memberSlotLists members)
  | _ => []

/-- The owned slots of each member, relative to the member. -/
def memberSlotLists : List Member → List (List Nat)
  | [] => []
  | ⟨_, type, retention⟩ :: members =>
    memberSlots type retention (ownedSlots type) :: memberSlotLists members

end

end CType

/-- The owned slots of a field, relative to the field. -/
def Field.ownedSlots (field : Field) : List Nat :=
  memberSlots field.type field.retention field.type.ownedSlots

end ForeignCall
