import ForeignCall.CType.Basic

/-! # Acceptance

Whether a slot of one type may receive a value of another. Leading `const` wrappers count on neither
side. A pointer to `void` receives every pointer; objects follow the class hierarchy of the host;
all other types receive only themselves.
-/

namespace ForeignCall

/-- The class relations that the host knows. -/
structure Hierarchy where
  /-- Whether the first class inherits from the second. -/
  isSubclass : String → String → Bool
  /-- Whether a class adopts a protocol. -/
  conformsTo : String → String → Bool

namespace Hierarchy

/-- No class inherits and none adopts a protocol. -/
def flat : Hierarchy := ⟨fun _ _ => false, fun _ _ => false⟩

def admitsClass (host : Hierarchy) (expected actual : Option String) : Bool :=
  match expected, actual with
  | none, _ => true
  | some expected, some actual => actual = expected || host.isSubclass actual expected
  | some _, none => false

/-- Whether an object of some class and protocols adopts a protocol. -/
def admitsProtocol (host : Hierarchy) (actual : Option String) (protocols : List String)
    (protocol : String) : Bool :=
  protocols.contains protocol || actual.any (host.conformsTo · protocol)

end Hierarchy

namespace CType

def withoutConst : CType → CType
  | wrapped .const inner => inner.withoutConst
  | type => type

/-- Whether an object slot restricted to a class and protocols receives a value of a type. A block
is an object of no class and no protocols. -/
def acceptsObject (host : Hierarchy) (className : Option String) (protocols : List String) :
    CType → Bool
  | object actual adopted =>
    host.admitsClass className actual && protocols.all (host.admitsProtocol actual adopted)
  | block _ => className.isNone && protocols.isEmpty
  | _ => false

/-- Whether a block slot receives a value of a type: two signatures must agree where both are
known. -/
def acceptsBlock (expected : Option Signature) : CType → Bool
  | block actual =>
    match expected, actual with
    | some expected, some actual => expected = actual
    | _, _ => true
  | _ => false

/-- Whether a slot of the first type may receive a value of the second. -/
def accepts (host : Hierarchy) : CType → CType → Bool
  | wrapped .const target, source => accepts host target source
  | wrapped .pointer target, source =>
    match source.withoutConst with
    | wrapped .pointer actual => target.unqualified.isVoid || accepts host target actual
    | _ => false
  | object className protocols, source => acceptsObject host className protocols source.withoutConst
  | block signature, source => acceptsBlock signature source.withoutConst
  | target, source => target = source.withoutConst

end CType

end ForeignCall
