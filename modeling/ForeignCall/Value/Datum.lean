import ForeignCall.Value.Basic

/-! # Typed data

A `Datum` is a number, a truth value, an address or a list of data; a `DatumType` says how it lies in
memory and which type it has. Reading a datum out of a value reads its bytes and refuses those that
are no valid datum: a truth value must be stored as 0 or 1.
-/

namespace ForeignCall

/-- A value outside memory. -/
inductive Datum where
  | integer (number : Int)
  /-- A floating-point number, as its bits. -/
  | floating (bits : Nat)
  | truth (value : Bool)
  | address (address : Nat)
  | list (items : List Datum)

/-- How a datum lies in memory. -/
inductive DatumType where
  | signed (kind : Scalar)
  | unsigned (kind : Scalar)
  | floating (kind : Scalar)
  | truth
  | object
  | classRef
  | pointer
  | cString
  | selector
  | array (count : Nat) (element : DatumType)
  deriving DecidableEq, Repr

namespace DatumType

def type : DatumType → CType
  | signed kind | unsigned kind | floating kind => .scalar kind
  | truth => .scalar .bool
  | object => .anyObject
  | classRef => .classRef
  | pointer => .pointer .void
  | cString => .scalar .cString
  | selector => .scalar .selector
  | array count element => .array count element.type

def size : DatumType → Nat
  | signed kind | unsigned kind | floating kind => kind.size
  | truth => 1
  | object | classRef | pointer | cString | selector => pointerSize
  | array count element => count * element.size

/-- Whether bytes are accepted as a datum. Only a single truth value is looked at. -/
def acceptsBytes : DatumType → List UInt8 → Bool
  | truth, bytes => bytes = [0] || bytes = [1]
  | _, _ => true

mutual

/-- The bytes of a datum of a type, if the datum is of that type. -/
def encode? : DatumType → Datum → Option (List UInt8)
  | signed kind, .integer number | unsigned kind, .integer number =>
    some (Bytes.ofInt kind.size number)
  | floating kind, .floating bits => some (Bytes.ofNat kind.size bits)
  | truth, .truth value => some [if value then 1 else 0]
  | object, .address address | classRef, .address address | pointer, .address address
  | cString, .address address | selector, .address address =>
    some (Bytes.ofNat pointerSize address)
  | array count element, .list items =>
    if items.length = count then encodeAll? element items else none
  | _, _ => none

/-- The bytes of data of one type, one after the other. -/
def encodeAll? (element : DatumType) : List Datum → Option (List UInt8)
  | [] => some []
  | item :: items => do some ((← encode? element item) ++ (← encodeAll? element items))

end

def decode : DatumType → List UInt8 → Datum
  | signed _, bytes => .integer (Bytes.toInt bytes)
  | unsigned _, bytes => .integer (Bytes.toNat bytes)
  | floating _, bytes => .floating (Bytes.toNat bytes)
  | truth, bytes => .truth (Bytes.toNat bytes ≠ 0)
  | object, bytes | classRef, bytes | pointer, bytes | cString, bytes | selector, bytes =>
    .address (Bytes.toNat bytes)
  | array count element, bytes =>
    .list ((List.range count).map fun index =>
      decode element ((bytes.drop (index * element.size)).take element.size))

end DatumType

namespace Value

def box (kind : DatumType) (bytes : List UInt8) : Except ValueError (Value × List ReferenceEvent) :=
  new kind.type bytes

def set (host : Hierarchy) (value : Value) (place : Place) (kind : DatumType) (bytes : List UInt8) :
    Except ValueError (Value × List ReferenceEvent) :=
  value.write host place bytes kind.type

def get (host : Hierarchy) (value : Value) (place : Place) (kind : DatumType) :
    Except ValueError Datum :=
  (value.read host place kind.type kind.size).bind fun bytes =>
    if kind.acceptsBytes bytes then .ok (kind.decode bytes) else .error (.invalidBitPattern kind.type)

end Value

end ForeignCall
