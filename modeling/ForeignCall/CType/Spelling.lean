import ForeignCall.CType.Basic

/-! # C spelling

How a type reads in C, for messages: `int`, `struct Point`, `NSString<NSCopying> *`. The spelling is
meant for readers and is not read back.
-/

namespace ForeignCall

/-- The label of a member: its name, or its index when it has none. -/
def memberLabel (name : Option String) (index : Nat) : String :=
  match name with
  | some name => name
  | none => "_" ++ toString index

namespace CType

def spellObject (className : Option String) (protocols : List String) : String :=
  className.getD "id"
    ++ (if protocols.isEmpty then "" else "<" ++ ", ".intercalate protocols ++ ">")
    ++ (if className.isSome then " *" else "")

def spellWrapper (wrapper : Wrapper) (inner : String) : String :=
  match wrapper with
  | .pointer => inner ++ " *"
  | .const => "const " ++ inner
  | .atomic => "_Atomic(" ++ inner ++ ")"
  | .complex => "_Complex " ++ inner
  | .vector => "__vector(" ++ inner ++ ")"

mutual

def spelling : CType → String
  | unknown => "?"
  | void => "void"
  | scalar kind => kind.spelling
  | object className protocols => spellObject className protocols
  | classRef => "Class"
  | block none => "id /* block */"
  | block (some ⟨⟨_, result⟩, arguments⟩) =>
    spelling result ++ " (^)(" ++ ", ".intercalate ((spellParameters arguments).drop 1) ++ ")"
  | wrapped wrapper inner => spellWrapper wrapper (spelling inner)
  | bitfield width => "unsigned int : " ++ toString width
  | array count element => spelling element ++ "[" ++ toString count ++ "]"
  | forward shape none => shape.keyword ++ " \x7b \x7d"
  | forward shape (some name) => shape.keyword ++ " " ++ name
  | aggregate shape none members => shape.keyword ++ " \x7b" ++ spellMembers 0 members ++ " \x7d"
  | aggregate shape (some name) _ => shape.keyword ++ " " ++ name

def spellParameters : List Parameter → List String
  | [] => []
  | ⟨_, type⟩ :: parameters => spelling type :: spellParameters parameters

/-- The declarations of members, of which the first has an index. -/
def spellMembers (index : Nat) : List Member → String
  | [] => ""
  | ⟨name, type, _⟩ :: members =>
    (match type with
      | bitfield width =>
        " unsigned int " ++ memberLabel name index ++ " : " ++ toString width ++ ";"
      | _ => " " ++ spelling type ++ " " ++ memberLabel name index ++ ";")
      ++ spellMembers (index + 1) members

end

end CType

end ForeignCall
