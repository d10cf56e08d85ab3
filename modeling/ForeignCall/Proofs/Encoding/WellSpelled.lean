import ForeignCall.Encoding.Parser
import ForeignCall.Encoding.Printer

/-! # Well-spelled types

The types that their encodings keep apart. A name must not contain the characters that end it, a
number must be representable, and two neighbours must not spell a third thing: `@` and `?` in a row
are a block, and `r` or `!` before the type of a parameter is an attribute. The first character of an
encoding never closes a type, quotes a name or belongs to a number (`CType.encode_eq_cons`).
-/

namespace ForeignCall

/-- A name that is not empty and has none of some characters. -/
def isNameWithout (forbidden : List Char) (name : String) : Bool :=
  name ≠ "" && name.toList.all fun c => !forbidden.contains c

theorem isNameWithout_iff {forbidden : List Char} {name : String} :
    isNameWithout forbidden name = true ↔
      name.toList ≠ [] ∧ ∀ c ∈ name.toList, c ∉ forbidden := by
  simp [isNameWithout]

/-- Whether no text that ends in `@` stands before one that begins with `?`. -/
def keepsObjects : List (List Char) → Bool
  | first :: second :: texts =>
    !(first.getLast? = some '@' && second.head? = some '?') && keepsObjects (second :: texts)
  | _ => true

theorem keepsObjects_cons {text : List Char} {texts : List (List Char)} :
    keepsObjects (text :: texts) = true ↔
      (text.getLast? = some '@' → texts.head?.bind List.head? ≠ some '?') ∧
        keepsObjects texts = true := by
  cases texts with
  | nil => simp [keepsObjects]
  | cons second texts =>
    rw [keepsObjects]
    by_cases last : text.getLast? = some '@' <;> simp [last]

/-- The name of an aggregate; `?` is the spelling of none. -/
def Shape.isName (shape : Shape) (name : String) : Bool :=
  isNameWithout ['=', shape.closing] name && name ≠ "?"

/-- The text of a parameter without an offset. -/
def Parameter.encode (parameter : Parameter) : List Char :=
  parameter.attributes.encode ++ parameter.type.encode

/-- Whether the type of a parameter is told from its attributes. -/
def Parameter.isDistinct (parameter : Parameter) : Bool :=
  let text := parameter.type.encode
  text.head? ≠ some 'r' && (text.head? ≠ some '!' || text.tail.head? = some '[')
    && !(parameter.attributes.legacy && text.head? = some '[')

namespace CType

mutual

def isWellSpelled : CType → Bool
  | object className protocols =>
    className.all (isNameWithout ['"', '<']) && protocols.all (isNameWithout ['"', '<', '>'])
  | block (some ⟨⟨attributes, type⟩, arguments⟩) =>
    isWellSpelled type && areParametersWellSpelled arguments
      && (⟨attributes, type⟩ :: arguments).all Parameter.isDistinct
      && keepsObjects ((⟨attributes, type⟩ :: arguments).map Parameter.encode)
  | wrapped _ inner => isWellSpelled inner
  | bitfield width => width < Quantity.bitfieldWidth.limit
  | array count element => count < Quantity.arrayLength.limit && isWellSpelled element
  | forward shape name => name.all shape.isName
  | aggregate shape name members =>
    name.all shape.isName && areMembersWellSpelled members
      && (members.any (·.name.isSome) || keepsObjects (members.map (·.type.encode)))
  | _ => true

/-- Whether members are well spelled and have their types' default ownership. -/
def areMembersWellSpelled : List Member → Bool
  | [] => true
  | ⟨name, type, retention⟩ :: members =>
    name.all (isNameWithout ['"']) && retention = type.defaultRetention && isWellSpelled type
      && areMembersWellSpelled members

def areParametersWellSpelled : List Parameter → Bool
  | [] => true
  | ⟨_, type⟩ :: parameters => isWellSpelled type && areParametersWellSpelled parameters

end

theorem areNames_of_areMembersWellSpelled {members : List Member}
    (spelled : areMembersWellSpelled members = true) :
    ∀ member ∈ members, member.name.all (isNameWithout ['"']) = true := by
  induction members with
  | nil => simp
  | cons member members ih =>
    obtain ⟨name, type, retention⟩ := member
    simp only [areMembersWellSpelled, Bool.and_eq_true] at spelled
    exact List.forall_mem_cons.mpr ⟨spelled.1.1.1, ih spelled.2⟩

end CType

/-! ## First characters -/

/-- Whether a type or a parameter may begin with a character. -/
def opensItem (c : Char) : Bool :=
  !(c.isDigit || isCloser c || Text.isAsciiBlank c || c = '"' || c = '<' || c = '+' || c = '-')

theorem opensItem_attribute (flag : Attribute) : opensItem flag.code = true := by
  cases flag <;> decide

/-- Whether a type may begin with a character: of the attributes, `r` and `!` are codes of types
too. -/
def opensType (c : Char) : Bool :=
  opensItem c && ((Attribute.ofCode? c).isNone || c = 'r' || c = '!')

theorem opensType_scalar (kind : Scalar) : opensType kind.code = true := by
  cases kind <;> decide

theorem CType.encode_eq_cons_opensType (type : CType) :
    ∃ code rest, type.encode = code :: rest ∧ opensType code = true := by
  cases type with
  | unknown => exact ⟨_, _, rfl, by decide⟩
  | void => exact ⟨_, _, rfl, by decide⟩
  | scalar kind => exact ⟨_, _, rfl, opensType_scalar kind⟩
  | object className protocols => exact ⟨_, _, rfl, by decide⟩
  | classRef => exact ⟨_, _, rfl, by decide⟩
  | block signature =>
    cases signature with
    | none => exact ⟨_, _, rfl, by decide⟩
    | some signature =>
      obtain ⟨⟨attributes, type⟩, arguments⟩ := signature
      exact ⟨_, _, rfl, by decide⟩
  | wrapped wrapper inner => exact ⟨_, _, rfl, by cases wrapper <;> decide⟩
  | bitfield width => exact ⟨_, _, rfl, by decide⟩
  | array count element => exact ⟨_, _, rfl, by decide⟩
  | forward shape name => exact ⟨_, _, rfl, by cases shape <;> decide⟩
  | aggregate shape name members => exact ⟨_, _, rfl, by cases shape <;> decide⟩

/-- An encoding begins with a character that no other word begins or goes on with. -/
theorem CType.encode_eq_cons (type : CType) :
    ∃ code rest, type.encode = code :: rest ∧ opensItem code = true := by
  obtain ⟨code, rest, encode_eq, opens⟩ := type.encode_eq_cons_opensType
  rw [opensType, Bool.and_eq_true] at opens
  exact ⟨code, rest, encode_eq, opens.1⟩

/-- Codes of attributes and a type after them begin as an item does. -/
theorem exists_cons_of_codes (flags : List Attribute) (type : CType) (rest : List Char) :
    ∃ code others, flags.map Attribute.code ++ (type.encode ++ rest) = code :: others ∧
      opensItem code = true := by
  cases flags with
  | nil =>
    obtain ⟨code, others, encode_eq, opens⟩ := type.encode_eq_cons
    exact ⟨code, others ++ rest, by simp [encode_eq], opens⟩
  | cons flag flags => exact ⟨_, _, rfl, opensItem_attribute flag⟩

theorem Parameter.encode_eq_cons (parameter : Parameter) :
    ∃ code rest, parameter.encode = code :: rest ∧ opensItem code = true := by
  simpa [encode, Attributes.encode] using
    exists_cons_of_codes parameter.attributes.toList parameter.type []

/-- What a character that opens an item is not. -/
theorem opensItem_iff {c : Char} :
    opensItem c = true ↔
      c.isDigit = false ∧ isCloser c = false ∧ Text.isAsciiBlank c = false ∧ c ≠ '"' ∧ c ≠ '<' ∧
        c ≠ '+' ∧ c ≠ '-' := by
  simp [opensItem, and_assoc]

/-- An encoding does not go on with a number before it. -/
theorem CType.notDigit_encode_append (type : CType) (rest : List Char) :
    ∀ c, (type.encode ++ rest).head? = some c → c.isDigit = false := by
  intro c first
  obtain ⟨code, others, encode_eq, opens⟩ := type.encode_eq_cons
  rw [encode_eq] at first
  cases first
  exact (opensItem_iff.mp opens).1

/-! ## Parts of encodings -/

namespace CType

theorem length_encode_pos (type : CType) : 0 < type.encode.length := by
  obtain ⟨code, rest, encode_eq, _⟩ := type.encode_eq_cons
  simp [encode_eq]

theorem encode_array_append (count : Nat) (element : CType) (rest : List Char) :
    (array count element).encode ++ rest =
      '[' :: (encodeNat count ++ (element.encode ++ ']' :: rest)) := by
  simp [encode]

theorem encode_aggregate_append (shape : Shape) (name : Option String) (members : List Member)
    (rest : List Char) :
    (aggregate shape name members).encode ++ rest =
      shape.opening :: ((name.getD "?").toList ++ '=' ::
        (encodeMembers (members.any (·.name.isSome)) members ++ shape.closing :: rest)) := by
  simp [encode]

theorem encode_block_append (result : Parameter) (arguments : List Parameter) (rest : List Char) :
    (block (some ⟨result, arguments⟩)).encode ++ rest =
      '@' :: '?' :: '<' :: (encodeParameters (result :: arguments) ++ '>' :: rest) := by
  cases result
  simp [encode, encodeParameters]

theorem encodeMembers_named_append (member : Member) (members : List Member) (rest : List Char) :
    encodeMembers true (member :: members) ++ rest =
      '"' :: ((member.name.getD "").toList ++ '"' ::
        (member.type.encode ++ (encodeMembers true members ++ rest))) := by
  cases member
  simp [encodeMembers, encodeQuoted]

theorem encodeMembers_unnamed_append (member : Member) (members : List Member) (rest : List Char) :
    encodeMembers false (member :: members) ++ rest =
      member.type.encode ++ (encodeMembers false members ++ rest) := by
  cases member
  simp [encodeMembers]

theorem length_encodeParameters_lt_block {result : Parameter} {arguments : List Parameter}
    {depth : Nat} (enough : (block (some ⟨result, arguments⟩)).encode.length ≤ depth + 1) :
    (encodeParameters (result :: arguments)).length < depth := by
  have length := congrArg List.length (encode_block_append result arguments [])
  simp only [List.append_nil, List.length_cons, List.length_append] at length
  omega

/-- The encoding of a member is shorter than that of a list that begins with it, and so is that of
the other members. -/
theorem length_encodeMembers_lt {named : Bool} {member : Member} {members : List Member} {depth : Nat}
    (enough : (encodeMembers named (member :: members)).length < depth + 1) :
    (encodeMembers named members).length < depth ∧ member.type.encode.length ≤ depth := by
  have positive := member.type.length_encode_pos
  cases member
  simp only [encodeMembers, List.length_append] at enough positive ⊢
  omega

theorem encodeParameters_cons (parameter : Parameter) (parameters : List Parameter) :
    encodeParameters (parameter :: parameters) =
      parameter.encode ++ encodeParameters parameters := by
  cases parameter
  simp [encodeParameters, Parameter.encode]

theorem length_encodeParameters_lt {parameter : Parameter} {parameters : List Parameter}
    {depth : Nat} (enough : (encodeParameters (parameter :: parameters)).length < depth + 1) :
    (encodeParameters parameters).length < depth ∧ parameter.type.encode.length ≤ depth := by
  have positive := parameter.type.length_encode_pos
  simp only [encodeParameters_cons, Parameter.encode, List.length_append] at enough
  omega

end CType

end ForeignCall
