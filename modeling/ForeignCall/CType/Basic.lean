import ForeignCall.CType.Scalar
import ForeignCall.Signature.Attributes

/-! # Types and signatures

A `CType` describes a C type as far as the encoding language can. It holds only what is free to
choose: sizes, field offsets and frame offsets are functions of it, so equality of types is
equality of descriptions. Signatures appear inside types, because a block may carry one.
`decEq` decides equality; `unqualified` strips the wrappers that change neither layout nor
ownership.
-/

namespace ForeignCall

/-- The ownership of an object-typed slot. -/
inductive Retention where
  | strong
  | weak
  | unretained
  deriving DecidableEq, Repr

namespace Retention

/-- A strong slot owns one reference; the other two own none. -/
def isOwned : Retention → Bool
  | strong => true
  | weak | unretained => false

def name : Retention → String
  | strong => "Strong"
  | weak => "Weak"
  | unretained => "Unretained"

end Retention

inductive Wrapper where
  | pointer
  | vector
  | complex
  | atomic
  | const
  deriving DecidableEq, Repr

namespace Wrapper

def all : List Wrapper := [pointer, vector, complex, atomic, const]

/-- The character that stands for a wrapper in an encoding. -/
def code : Wrapper → Char
  | pointer => '^'
  | vector => '!'
  | complex => 'j'
  | atomic => 'A'
  | const => 'r'

def ofCode? : Char → Option Wrapper
  | '^' => some pointer
  | '!' => some vector
  | 'j' => some complex
  | 'A' => some atomic
  | 'r' => some const
  | _ => none

/-- A transparent wrapper leaves layout and ownership of the inner type as they are. -/
def isTransparent : Wrapper → Bool
  | atomic | const => true
  | pointer | vector | complex => false

def name : Wrapper → String
  | pointer => "Pointer"
  | vector => "Vector"
  | complex => "Complex"
  | atomic => "Atomic"
  | const => "Const"

theorem ofCode?_code (wrapper : Wrapper) : ofCode? wrapper.code = some wrapper := by
  cases wrapper <;> rfl

theorem code_of_ofCode? {code : Char} {wrapper : Wrapper} (read : ofCode? code = some wrapper) :
    wrapper.code = code := by
  unfold ofCode? at read
  split at read <;> simp_all [Wrapper.code] <;> subst read <;> rfl

end Wrapper

/-- How the members of an aggregate share its bytes: one after the other, or all from the start. -/
inductive Shape where
  | struct
  | union
  deriving DecidableEq, Repr

namespace Shape

/-- The character that opens an aggregate in an encoding. -/
def opening : Shape → Char
  | .struct => '{'
  | .union => '('

def closing : Shape → Char
  | .struct => '}'
  | .union => ')'

def ofOpening? : Char → Option Shape
  | '{' => some .struct
  | '(' => some .union
  | _ => none

def keyword : Shape → String
  | .struct => "struct"
  | .union => "union"

end Shape

mutual

/-- A C type as the encoding language describes it. -/
inductive CType where
  /-- A type about which nothing is known. -/
  | unknown
  | void
  | scalar (kind : Scalar)
  /-- An object reference, restricted to a class or to protocols where they are given. -/
  | object (className : Option String) (protocols : List String)
  /-- A reference to a class. -/
  | classRef
  /-- A reference to a block, with its call signature where it is known. -/
  | block (signature : Option Signature)
  | wrapped (wrapper : Wrapper) (inner : CType)
  /-- Some bits of an integer; meaningful as a member of an aggregate. -/
  | bitfield (width : Nat)
  | array (count : Nat) (element : CType)
  /-- An aggregate that is declared and not defined. -/
  | forward (shape : Shape) (name : Option String)
  | aggregate (shape : Shape) (name : Option String) (members : List Member)

structure Member where
  /-- The member's name; a name may be present and empty. -/
  name : Option String
  type : CType
  /-- The ownership of an object in this member. -/
  retention : Retention

/-- A return value or an argument of a signature. -/
structure Parameter where
  attributes : Attributes
  type : CType

/-- The return value and the arguments of a function, a method or a block. -/
structure Signature where
  result : Parameter
  arguments : List Parameter

end

namespace CType

/-! ## Decidable equality -/

mutual

/-- Structural equality of types. -/
def beq : CType → CType → Bool
  | unknown, unknown => true
  | void, void => true
  | scalar left, scalar right => left == right
  | object class₁ protocols₁, object class₂ protocols₂ => class₁ == class₂ && protocols₁ == protocols₂
  | classRef, classRef => true
  | block none, block none => true
  | block (some ⟨result₁, arguments₁⟩), block (some ⟨result₂, arguments₂⟩) =>
    beqParameter result₁ result₂ && beqParameters arguments₁ arguments₂
  | wrapped wrapper₁ inner₁, wrapped wrapper₂ inner₂ => wrapper₁ == wrapper₂ && beq inner₁ inner₂
  | bitfield width₁, bitfield width₂ => width₁ == width₂
  | array count₁ element₁, array count₂ element₂ => count₁ == count₂ && beq element₁ element₂
  | forward shape₁ name₁, forward shape₂ name₂ => shape₁ == shape₂ && name₁ == name₂
  | aggregate shape₁ name₁ members₁, aggregate shape₂ name₂ members₂ =>
    shape₁ == shape₂ && name₁ == name₂ && beqMembers members₁ members₂
  | _, _ => false

def beqMember : Member → Member → Bool
  | ⟨name₁, type₁, retention₁⟩, ⟨name₂, type₂, retention₂⟩ =>
    name₁ == name₂ && beq type₁ type₂ && retention₁ == retention₂

def beqMembers : List Member → List Member → Bool
  | [], [] => true
  | member₁ :: members₁, member₂ :: members₂ =>
    beqMember member₁ member₂ && beqMembers members₁ members₂
  | _, _ => false

def beqParameter : Parameter → Parameter → Bool
  | ⟨attributes₁, type₁⟩, ⟨attributes₂, type₂⟩ => attributes₁ == attributes₂ && beq type₁ type₂

def beqParameters : List Parameter → List Parameter → Bool
  | [], [] => true
  | parameter₁ :: parameters₁, parameter₂ :: parameters₂ =>
    beqParameter parameter₁ parameter₂ && beqParameters parameters₁ parameters₂
  | _, _ => false

end

mutual

theorem beq_eq : (left right : CType) → (beq left right = true ↔ left = right)
  | .block (some ⟨result, arguments⟩), right => by
    cases right with
    | block signature =>
      cases signature with
      | none => simp [beq]
      | some signature =>
        cases signature
        simp [beq, beqParameter_eq result, beqParameters_eq arguments]
    | _ => simp [beq]
  | .block none, right => by
    cases right with
    | block signature => cases signature <;> simp [beq]
    | _ => simp [beq]
  | .wrapped _ inner, right => by
    cases right <;> simp [beq, beq_eq inner]
  | .array _ element, right => by
    cases right <;> simp [beq, beq_eq element]
  | .aggregate _ _ members, right => by
    cases right <;> simp [beq, beqMembers_eq members, and_assoc]
  | .unknown, right => by cases right <;> simp [beq]
  | .void, right => by cases right <;> simp [beq]
  | .scalar _, right => by cases right <;> simp [beq]
  | .object _ _, right => by cases right <;> simp [beq]
  | .classRef, right => by cases right <;> simp [beq]
  | .bitfield _, right => by cases right <;> simp [beq]
  | .forward _ _, right => by cases right <;> simp [beq]

theorem beqMember_eq : (left right : Member) → (beqMember left right = true ↔ left = right)
  | ⟨_, type, _⟩, ⟨_, _, _⟩ => by simp [beqMember, beq_eq type, and_assoc]

theorem beqMembers_eq : (left right : List Member) → (beqMembers left right = true ↔ left = right)
  | [], right => by cases right <;> simp [beqMembers]
  | member :: members, right => by
    cases right <;> simp [beqMembers, beqMember_eq member, beqMembers_eq members]

theorem beqParameter_eq :
    (left right : Parameter) → (beqParameter left right = true ↔ left = right)
  | ⟨_, type⟩, ⟨_, _⟩ => by simp [beqParameter, beq_eq type]

theorem beqParameters_eq :
    (left right : List Parameter) → (beqParameters left right = true ↔ left = right)
  | [], right => by cases right <;> simp [beqParameters]
  | parameter :: parameters, right => by
    cases right <;> simp [beqParameters, beqParameter_eq parameter, beqParameters_eq parameters]

end

instance : DecidableEq CType := fun left right => decidable_of_iff _ (beq_eq left right)

end CType

instance : DecidableEq Member := fun left right => decidable_of_iff _ (CType.beqMember_eq left right)

instance : DecidableEq Parameter := fun left right =>
  decidable_of_iff _ (CType.beqParameter_eq left right)

instance : DecidableEq Signature := fun left right =>
  decidable_of_iff (left.result = right.result ∧ left.arguments = right.arguments) (by
    cases left
    cases right
    simp)

namespace CType

instance : Inhabited CType := ⟨unknown⟩

/-! ## Constructions -/

/-- An object reference without restrictions. -/
def anyObject : CType := object none []

def pointer (pointee : CType) : CType := wrapped .pointer pointee

/-- An empty name and `?` stand for no name. -/
def normalizeName : Option String → Option String
  | some name => if name = "" ∨ name = "?" then none else some name
  | none => none

/-! ## Inspection -/

/-- The type without its transparent wrappers. -/
def unqualified : CType → CType
  | wrapped .const inner => inner.unqualified
  | wrapped .atomic inner => inner.unqualified
  | type => type

def pointee? : CType → Option CType
  | wrapped .pointer inner => some inner
  | _ => none

def scalar? : CType → Option Scalar
  | scalar kind => some kind
  | _ => none

def isVoid : CType → Bool
  | void => true
  | _ => false

def isUnknown : CType → Bool
  | unknown => true
  | _ => false

/-- A reference to an object, a class or a block. -/
def isObject : CType → Bool
  | object _ _ | classRef | block _ => true
  | _ => false

def isPointer : CType → Bool
  | wrapped .pointer _ => true
  | _ => false

def isBitfield : CType → Bool
  | bitfield _ => true
  | _ => false

/-- A structure or a union, complete or not. -/
def isAggregate : CType → Bool
  | forward _ _ | aggregate _ _ _ => true
  | _ => false

/-- The ownership that a member gets unless another is chosen: objects and blocks are owned,
everything else is not. -/
def defaultRetention (type : CType) : Retention :=
  match type.unqualified with
  | object _ _ | block _ => .strong
  | _ => .unretained

@[simp]
theorem unqualified_const (inner : CType) : (wrapped .const inner).unqualified = inner.unqualified :=
  rfl

@[simp]
theorem unqualified_atomic (inner : CType) :
    (wrapped .atomic inner).unqualified = inner.unqualified := rfl

end CType

/-- A member with its type's default ownership. -/
def Member.ofType (name : Option String) (type : CType) : Member := ⟨name, type, type.defaultRetention⟩

end ForeignCall
