import ForeignCall.CType.Basic

/-! # Canonical encodings

Writing a type as text. Every type has one canonical encoding: names are quoted in an aggregate as
soon as one member has a name, and a member without one then has an empty name. An encoding is a
list of characters, as readers take it; `CType.encoding` is the same as a string.
-/

namespace ForeignCall

/-- A number in decimal digits. -/
def encodeNat (number : Nat) : List Char := Nat.toDigits 10 number

def encodeQuoted (name : List Char) : List Char := '"' :: (name ++ ['"'])

/-- The class and the protocols of an object reference; an unrestricted reference writes none. -/
def encodeRestriction (className : Option String) (protocols : List String) : List Char :=
  if className.isNone && protocols.isEmpty then [] else
    encodeQuoted ((className.getD "").toList ++
      protocols.flatMap fun protocol => '<' :: (protocol.toList ++ ['>']))

namespace CType

mutual

/-- The canonical encoding of a type. -/
def encode : CType → List Char
  | unknown => ['?']
  | void => ['v']
  | scalar kind => [kind.code]
  | object className protocols => '@' :: encodeRestriction className protocols
  | classRef => ['#']
  | block none => ['@', '?']
  | block (some ⟨⟨attributes, type⟩, arguments⟩) =>
    '@' :: '?' :: '<' :: (attributes.encode ++ encode type ++ encodeParameters arguments ++ ['>'])
  | wrapped wrapper inner => wrapper.code :: encode inner
  | bitfield width => 'b' :: encodeNat width
  | array count element => '[' :: (encodeNat count ++ encode element ++ [']'])
  | forward shape name => shape.opening :: ((name.getD "?").toList ++ [shape.closing])
  | aggregate shape name members =>
    shape.opening :: ((name.getD "?").toList
      ++ '=' :: (encodeMembers (members.any (·.name.isSome)) members ++ [shape.closing]))

/-- The members of an aggregate, with names or without. -/
def encodeMembers (named : Bool) : List Member → List Char
  | [] => []
  | ⟨name, type, _⟩ :: members =>
    (if named then encodeQuoted (name.getD "").toList else []) ++ encode type
      ++ encodeMembers named members

/-- Parameters with their attributes and without offsets. -/
def encodeParameters : List Parameter → List Char
  | [] => []
  | ⟨attributes, type⟩ :: parameters =>
    attributes.encode ++ encode type ++ encodeParameters parameters

end

def encoding (type : CType) : String := String.ofList type.encode

end CType

end ForeignCall
