import ForeignCall.CType.Acceptance
import ForeignCall.Host.Selector

/-! # The host's object system

Calls ask the host for the implementation of a method, and acceptance asks it for the class
hierarchy. `ObjectSystem` answers from tables: the superclass of a class, the protocols a class
adopts, and the functions behind the methods of an object. Relations are searched along the chain of
superclasses, of which a bounded number is looked at, so a class that inherits from itself does no
harm.
-/

namespace ForeignCall

/-- What a call needs of its host. -/
structure Host where
  hierarchy : Hierarchy
  /-- The address behind a method of an object; the address may be null. -/
  resolve : Nat → Selector → Option Nat

/-- A host without classes and methods. -/
def Host.detached : Host := ⟨.flat, fun _ _ => none⟩

/-- A method of an object and the address of its function. -/
structure MethodEntry where
  receiver : Nat
  selector : Selector
  function : Nat
  deriving DecidableEq, Repr

structure ObjectSystem where
  /-- Pairs of a class and its superclass. -/
  supers : List (String × String) := []
  /-- Pairs of a class and a protocol it adopts. -/
  conformances : List (String × String) := []
  methods : List MethodEntry := []

namespace ObjectSystem

/-- At most this many classes of a chain are looked at. -/
def chainLimit : Nat := 64

/-- A class and its superclasses, up to a number of classes. -/
def chain (system : ObjectSystem) : Nat → String → List String
  | 0, _ => []
  | count + 1, className =>
    className ::
      match system.supers.lookup className with
      | some superclass => system.chain count superclass
      | none => []

def hierarchy (system : ObjectSystem) : Hierarchy where
  isSubclass className superclass := (system.chain chainLimit className).contains superclass
  conformsTo className protocol :=
    (system.chain chainLimit className).any fun ancestor =>
      system.conformances.contains (ancestor, protocol)

/-- The function behind a method; a later entry replaces an earlier one. -/
def resolve (system : ObjectSystem) (receiver : Nat) (selector : Selector) : Option Nat :=
  (system.methods.reverse.find? fun method =>
    method.receiver = receiver && method.selector = selector).map (·.function)

def toHost (system : ObjectSystem) : Host := ⟨system.hierarchy, system.resolve⟩

end ObjectSystem

end ForeignCall
