import ForeignCall.CType.Layout

/-! # Placed fields

The members of a complete aggregate together with their positions, and the ways to find one: by
index, by name, by a byte it occupies.
-/

namespace ForeignCall

/-- A member and its position, which is absent after a member of unknown layout. -/
structure Field extends Member where
  position : Option Position
  deriving DecidableEq

namespace Field

def offset? (field : Field) : Option Nat := field.position.map (·.offset)

/-- The position of a bitfield in its storage unit. -/
def bit? (field : Field) : Option Nat := field.position.bind (·.bit)

def width? (field : Field) : Option Nat :=
  match field.type with
  | .bitfield width => some width
  | _ => none

/-- The bytes of a field; a field of unknown layout counts none. -/
def byteCount (field : Field) : Nat := (field.type.layout?.map (·.size)).getD 0

/-- Whether a field starts at a byte or has it among its bytes. -/
def occupies (field : Field) (byte : Nat) : Bool :=
  match field.offset? with
  | some start => byte = start || (start < byte && byte - start < field.byteCount)
  | none => false

end Field

/-- The members of an aggregate at their positions. -/
def placedFields (shape : Shape) (members : List Member) : List Field :=
  members.zipWith (fun member position => { member with position })
    (Placement.ofShape shape (CType.footprints members)).positions

namespace CType

/-- The fields of a complete aggregate. -/
def fields? : CType → Option (List Field)
  | aggregate shape _ members => some (placedFields shape members)
  | _ => none

/-- The fields of an aggregate; an incomplete one has none to show. -/
def fields (type : CType) : List Field := type.fields?.getD []

def fieldAt? (type : CType) (index : Nat) : Option Field := type.fields[index]?

/-- The first field of a name. -/
def fieldNamed? (type : CType) (name : String) : Option Field :=
  type.fields.find? (·.name = some name)

def indexOf? (type : CType) (name : String) : Option Nat :=
  type.fields.findIdx? (·.name = some name)

/-- The first field that occupies a byte. -/
def fieldAtOffset? (type : CType) (byte : Nat) : Option Field :=
  type.fields.find? (·.occupies byte)

def hasFieldNames (type : CType) : Bool := type.fields.any (·.name.isSome)

/-- The byte offset of an element of an array; the index is not compared with the array's length. -/
def elementOffset? (element : CType) (index : Nat) : Option Nat :=
  element.layout?.bind fun layout => fits? (layout.size * index)

end CType

end ForeignCall
