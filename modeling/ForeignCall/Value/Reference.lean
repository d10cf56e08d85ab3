import ForeignCall.Value.Bytes
import ForeignCall.CType.Ownership

/-! # Counted references

Values take and drop references to objects. What they ask of the host is recorded as a list of
events, oldest first. An object is an address that is not zero. `balance` counts, for one object, the
references taken less those dropped.
-/

namespace ForeignCall

/-- A change of an object's reference count. -/
inductive ReferenceEvent where
  | retain (object : Nat)
  | release (object : Nat)
  deriving DecidableEq, Repr

namespace ReferenceEvent

def object : ReferenceEvent → Nat
  | retain object | release object => object

def change : ReferenceEvent → Int
  | retain _ => 1
  | release _ => -1

end ReferenceEvent

/-- The references to an object that events take, less those that they drop. -/
def balance : List ReferenceEvent → Nat → Int
  | [], _ => 0
  | event :: events, object =>
    (if event.object = object then event.change else 0) + balance events object

/-- The object whose address lies in bytes at a slot. -/
def objectAt? (bytes : List UInt8) (slot : Nat) : Option Nat :=
  (Bytes.slice? bytes slot pointerSize).bind fun region =>
    let object := Bytes.toNat region
    if object = 0 then none else some object

/-- The objects whose addresses lie in bytes at slots. -/
def objectsAt (bytes : List UInt8) (slots : List Nat) : List Nat := slots.filterMap (objectAt? bytes)

def retainSlots (bytes : List UInt8) (slots : List Nat) : List ReferenceEvent :=
  (objectsAt bytes slots).map .retain

def releaseSlots (bytes : List UInt8) (slots : List Nat) : List ReferenceEvent :=
  (objectsAt bytes slots).map .release

end ForeignCall
