import ForeignCall.CType.Acceptance
import ForeignCall.Encoding.Printer
import ForeignCall.Value.Error
import ForeignCall.Value.Reference

/-! # Values

A value is a type together with as many bytes as the type has. A `Place` names the whole value, an
element or a field; it resolves to a `Slot`, which says where the bytes lie, which references they
own and, for a bitfield, which bits count.

Every operation that succeeds reports the reference events it issues; one that fails issues none and
changes nothing. A write takes the references of the new bytes before it drops those of the old
ones, so an object that both hold stays alive in between.
-/

namespace ForeignCall

/-- Storage of this many bytes or more is never granted: it exceeds the address space of a process. -/
def allocationLimit : Nat := 2 ^ (47 : Nat)

structure Value where
  type : CType
  bytes : List UInt8
  size_eq : type.layout?.map (·.size) = some bytes.length
  deriving DecidableEq

/-- A part of a value, or all of it. -/
inductive Place where
  | whole
  | index (index : Nat)
  | field (name : String)
  deriving DecidableEq, Repr

/-- The bits of a storage unit that a bitfield takes. -/
structure BitRange where
  start : Nat
  width : Nat
  deriving DecidableEq, Repr

namespace BitRange

/-- The bits of a unit, as a number. -/
def extract (range : BitRange) (unit : Nat) : Nat := unit / 2 ^ range.start % 2 ^ range.width

/-- The unit with its bits in the range replaced by the low bits of a number. -/
def insert (range : BitRange) (unit value : Nat) : Nat :=
  unit % 2 ^ range.start
    + 2 ^ range.start * (value % 2 ^ range.width + 2 ^ range.width * (unit / 2 ^ (range.start + range.width)))

end BitRange

/-- Where a part of a value lies. -/
structure Slot where
  offset : Nat
  type : CType
  /-- The references that the part owns, relative to its offset. -/
  owned : List Nat
  /-- The bits of the part, if it is a bitfield of an aggregate. -/
  bits : Option BitRange
  deriving DecidableEq

namespace Slot

/-- What a slot with a region holds: the region itself, or the bits of a bitfield, zero-extended. -/
def content (slot : Slot) (region : List UInt8) : List UInt8 :=
  match slot.bits with
  | some range => Bytes.ofNat region.length (range.extract (Bytes.toNat region))
  | none => region

/-- The bytes of a slot's region after a write: the new bytes, or the region with the bits of a
bitfield replaced. -/
def update (slot : Slot) (region bytes : List UInt8) : List UInt8 :=
  match slot.bits with
  | some range => Bytes.ofNat region.length (range.insert (Bytes.toNat region) (Bytes.toNat bytes))
  | none => bytes

/-- The events of a write: a bitfield holds no references. -/
def writeEvents (slot : Slot) (region bytes : List UInt8) : List ReferenceEvent :=
  match slot.bits with
  | some _ => []
  | none => retainSlots bytes slot.owned ++ releaseSlots region slot.owned

theorem length_update {slot : Slot} {region bytes : List UInt8}
    (same : bytes.length = region.length) : (slot.update region bytes).length = region.length := by
  unfold update
  split <;> simp [same]

end Slot

namespace CType

/-- Whether a bitfield may exchange values with an integer that fills its storage unit. -/
def isUnitOf (bitfield other : CType) : Bool :=
  bitfield.isBitfield && other.scalar?.any fun kind => kind.isInteger && kind.size = bitfield.size

/-- Whether the first type may receive a value of the second, in a read or a write. -/
def isCompatible (host : Hierarchy) (target source : CType) : Bool :=
  accepts host target source || isUnitOf target source || isUnitOf source target

end CType

namespace Value

/-! ## Making values -/

/-- A value of given bytes that adopts the references in them. -/
def adopt (type : CType) (bytes : List UInt8) : Except ValueError Value :=
  match layout : type.layout? with
  | none => .error (.unsizedType type)
  | some known =>
    if known.size < allocationLimit then
      if length : bytes.length = known.size then .ok ⟨type, bytes, by simp [layout, length]⟩
      else .error (.sizeMismatch type known.size bytes.length)
    else .error (.allocationFailed type)

def zeroed (type : CType) : Except ValueError Value :=
  match layout : type.layout? with
  | none => .error (.unsizedType type)
  | some known =>
    if known.size < allocationLimit then
      .ok ⟨type, Bytes.zeros known.size, by simp [layout]⟩
    else .error (.allocationFailed type)

/-- A value of given bytes that takes references of its own. -/
def new (type : CType) (bytes : List UInt8) : Except ValueError (Value × List ReferenceEvent) :=
  (adopt type bytes).map fun value => (value, retainSlots bytes type.ownedSlots)

/-- A value of the first bytes of a longer region. -/
def ofRegion (type : CType) (bytes : List UInt8) : Except ValueError (Value × List ReferenceEvent) :=
  match type.layout? with
  | none => .error (.unsizedType type)
  | some layout => new type (bytes.take layout.size)

def void : Value := ⟨.void, [], rfl⟩

def copyEvents (value : Value) : List ReferenceEvent := retainSlots value.bytes value.type.ownedSlots

def dropEvents (value : Value) : List ReferenceEvent :=
  releaseSlots value.bytes value.type.ownedSlots

/-! ## Inspection -/

def encoding (value : Value) : String := value.type.encoding

def size (value : Value) : Nat := value.bytes.length

/-- The number of elements or fields. -/
def length? (value : Value) : Option Nat :=
  match value.type.unqualified with
  | .array count _ => some count
  | .aggregate _ _ members => some members.length
  | .forward _ _ => some 0
  | _ => none

/-- A value that could have elements and has none. -/
def isEmpty (value : Value) : Bool := value.length? = some 0

/-! ## Slots -/

def whole (value : Value) : Slot := ⟨0, value.type, value.type.ownedSlots, none⟩

/-- The slot of a field. A member of a union owns nothing. -/
def fieldSlot (shape : Shape) (field : Field) : Except ValueError Slot :=
  match field.offset? with
  | none => .error (.unsizedType field.type)
  | some offset =>
    .ok ⟨offset, field.type,
      match shape with
      | .struct => field.ownedSlots
      | .union => [],
      field.width?.map fun width => ⟨field.bit?.getD 0, width⟩⟩

def elementSlot (count : Nat) (element : CType) (index : Nat) : Except ValueError Slot :=
  if index < count then
    match element.elementOffset? index with
    | some offset => .ok ⟨offset, element, element.ownedSlots, none⟩
    | none => .error (.unsizedType element)
  else .error (.indexOutOfRange index count)

def slot (value : Value) : Place → Except ValueError Slot
  | .whole => .ok value.whole
  | .index index =>
    match value.type.unqualified with
    | .array count element => elementSlot count element index
    | .aggregate shape name members =>
      match (CType.aggregate shape name members).fieldAt? index with
      | some field => fieldSlot shape field
      | none => .error (.indexOutOfRange index members.length)
    | .forward _ _ => .error (.indexOutOfRange index 0)
    | _ => .error (.notIndexable value.type)
  | .field label =>
    match value.type.unqualified with
    | .array _ _ => .error (.noSuchField label)
    | .aggregate shape name members =>
      match (CType.aggregate shape name members).fieldNamed? label with
      | some field => fieldSlot shape field
      | none => .error (.noSuchField label)
    | .forward _ _ => .error (.noSuchField label)
    | _ => .error (.notIndexable value.type)

def region (value : Value) (slot : Slot) : Except ValueError (List UInt8) :=
  match slot.type.layout? with
  | none => .error (.unsizedType slot.type)
  | some layout =>
    match Bytes.slice? value.bytes slot.offset layout.size with
    | some region => .ok region
    | none => .error (.unsizedType slot.type)

/-! ## Reading -/

def readSlot (host : Hierarchy) (value : Value) (slot : Slot) (requested : CType) (length : Nat) :
    Except ValueError (List UInt8) :=
  if requested.isCompatible host slot.type then
    (value.region slot).bind fun region =>
      if length = region.length then .ok (slot.content region)
      else .error (.sizeMismatch requested region.length length)
  else .error (.typeMismatch slot.type requested)

/-- Reads a place as a type into `length` bytes. -/
def read (host : Hierarchy) (value : Value) (place : Place) (requested : CType) (length : Nat) :
    Except ValueError (List UInt8) :=
  (value.slot place).bind fun slot => value.readSlot host slot requested length

def extract (value : Value) (place : Place) : Except ValueError (Value × List ReferenceEvent) :=
  (value.slot place).bind fun slot =>
    (value.region slot).bind fun region => new slot.type (slot.content region)

/-! ## Writing -/

def writeSlot (host : Hierarchy) (value : Value) (slot : Slot) (bytes : List UInt8)
    (incoming : CType) : Except ValueError (Value × List ReferenceEvent) :=
  if slot.type.isCompatible host incoming then
    match slot.type.layout? with
    | none => .error (.unsizedType slot.type)
    | some layout =>
      match found : Bytes.slice? value.bytes slot.offset layout.size with
      | none => .error (.unsizedType slot.type)
      | some region =>
        if same : bytes.length = layout.size then
          have updated : (slot.update region bytes).length = layout.size := by
            rw [Slot.length_update (by rw [same, Bytes.length_slice? found]),
              Bytes.length_slice? found]
          .ok (⟨value.type, Bytes.splice value.bytes slot.offset (slot.update region bytes), by
              rw [Bytes.length_splice (by rw [updated]; exact Bytes.slice?_bound found),
                value.size_eq]⟩,
            slot.writeEvents region bytes)
        else .error (.sizeMismatch slot.type layout.size bytes.length)
  else .error (.typeMismatch slot.type incoming)

/-- Overwrites a place with bytes of a type. -/
def write (host : Hierarchy) (value : Value) (place : Place) (bytes : List UInt8)
    (incoming : CType) : Except ValueError (Value × List ReferenceEvent) :=
  (value.slot place).bind fun slot => value.writeSlot host slot bytes incoming

/-- Overwrites a place with another value. -/
def store (host : Hierarchy) (value : Value) (place : Place) (source : Value) :
    Except ValueError (Value × List ReferenceEvent) :=
  value.write host place source.bytes source.type

/-- Overwrites bytes at an offset without regard to references; bytes beyond the end are lost. -/
def poke (value : Value) (offset : Nat) (patch : List UInt8) : Value where
  type := value.type
  bytes := Bytes.splice value.bytes (min offset value.bytes.length)
    (patch.take (value.bytes.length - offset))
  size_eq := by
    rw [Bytes.length_splice, value.size_eq]
    rw [List.length_take]
    omega

end Value

end ForeignCall
