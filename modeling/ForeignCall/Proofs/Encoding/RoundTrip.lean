import ForeignCall.Proofs.Encoding.Steps
import ForeignCall.Proofs.Encoding.WellSpelled
import ForeignCall.Proofs.Encoding.Words

/-! # Reading types back

A well-spelled type is read back from its encoding (`ofEncoding_encoding`). A type inside another is
followed by text, and the reader looks into that text to tell where the type ends; `Delimits` is what
it must find there. The induction is on the type: every constructor reads back if its parts do, and
the text after each part delimits it.
-/

namespace ForeignCall

variable {named : Bool} {word rest : List Char}

/-- Text that ends the encoding before it: it prolongs no number and no block, and a quote in it
begins the name of a member. -/
structure Delimits (named : Bool) (word rest : List Char) : Prop where
  digit : word.getLast?.any Char.isDigit = true → ∀ c, rest.head? = some c → c.isDigit = false
  angle : rest.head? ≠ some '<'
  block : word.getLast? = some '@' → rest.head? ≠ some '?'
  name : ∀ text, rest = '"' :: text → quotesRestriction named text = false
  restriction : named = true → ∀ c, rest.head? = some c → c = '"' ∨ c = '}' ∨ c = ')'

/-- A type that is read back from its encoding, with a depth that the encoding's length covers. -/
def Reads (type : CType) : Prop :=
  ∀ depth named rest, type.encode.length ≤ depth → Delimits named type.encode rest →
    readType depth named (type.encode ++ rest) = .found type rest

/-- Members that are read back, up to the end of an aggregate. -/
def ReadsMembers (named : Bool) (members : List Member) : Prop :=
  ∀ depth shape unclosed rest, (CType.encodeMembers named members).length < depth →
    readMembers depth shape named unclosed
        (CType.encodeMembers named members ++ shape.closing :: rest) = .found members rest

/-- Parameters that are read back, up to the end of a block. -/
def ReadsParameters (parameters : List Parameter) : Prop :=
  ∀ depth rest, (CType.encodeParameters parameters).length < depth →
    readParameters depth true (CType.encodeParameters parameters ++ '>' :: rest) =
      .found parameters rest

/-! ## Delimiters -/

theorem delimits_nil (word : List Char) : Delimits false word [] where
  digit := by simp
  angle := by simp
  block := by simp
  name := by simp
  restriction := by simp

/-- A closing bracket delimits every type. -/
theorem delimits_closer {c : Char} (closes : isCloser c = true)
    (aggregate : named = true → c = '}' ∨ c = ')') (word rest : List Char) :
    Delimits named word (c :: rest) := by
  have cases : c = ']' ∨ c = '}' ∨ c = ')' ∨ c = '>' := by
    simpa [isCloser, or_assoc] using closes
  constructor
  · intro _ other first
    cases first
    rcases cases with rfl | rfl | rfl | rfl <;> rfl
  · rcases cases with rfl | rfl | rfl | rfl <;> simp
  · rcases cases with rfl | rfl | rfl | rfl <;> simp
  · intro text same
    cases same
    contradiction
  · intro isNamed other first
    cases first
    exact .inr (aggregate isNamed)

/-- The next item delimits a type outside of named members. -/
theorem delimits_item {code : Char} (opens : opensItem code = true)
    (block : word.getLast? = some '@' → code ≠ '?') (rest : List Char) :
    Delimits false word (code :: rest) := by
  obtain ⟨digit, _, _, quote, angle, _⟩ := opensItem_iff.mp opens
  constructor
  · intro _ other first
    cases first
    exact digit
  · simpa using angle
  · simpa using block
  · intro text same
    cases same
    contradiction
  · simp

/-- The name of the next member delimits a type among named members. -/
theorem delimits_name {name : List Char} {code : Char} (unquoted : '"' ∉ name)
    (opens : opensItem code = true) (word rest : List Char) :
    Delimits true word ('"' :: (name ++ '"' :: code :: rest)) := by
  obtain ⟨_, closer, _, quote, _⟩ := opensItem_iff.mp opens
  constructor
  · intro _ other first
    cases first
    rfl
  · simp
  · simp
  · intro text same
    cases same
    simp only [isCloser, Bool.or_eq_false_iff, decide_eq_false_iff_not] at closer
    simp [quotesRestriction_word unquoted, quote, closer]
  · intro _ other first
    cases first
    exact .inl rfl

/-- The text after a wrapper's code ends as the wrapped type does. -/
theorem Delimits.tail {code : Char} (delimits : Delimits named (code :: word) rest)
    (nonempty : word ≠ []) : Delimits named word rest := by
  have last : (code :: word).getLast? = word.getLast? := List.getLast?_cons_of_ne_nil nonempty
  obtain ⟨digit, angle, block, name, restriction⟩ := delimits
  rw [last] at digit block
  exact ⟨digit, angle, block, name, restriction⟩

/-! ## Types without members -/

/-- An encoding is not empty, so its reader takes a step. -/
theorem reads_of_step {type : CType}
    (step : ∀ depth named rest, type.encode.length ≤ depth + 1 → Delimits named type.encode rest →
      readType (depth + 1) named (type.encode ++ rest) = .found type rest) : Reads type := by
  intro depth named rest enough delimits
  obtain ⟨code, codes, encode_eq, _⟩ := type.encode_eq_cons
  cases depth with
  | zero => simp [encode_eq] at enough
  | succ depth => exact step depth named rest enough delimits

theorem reads_unknown : Reads .unknown :=
  reads_of_step fun _ _ _ _ _ => rfl

theorem reads_void : Reads .void :=
  reads_of_step fun _ _ _ _ _ => rfl

theorem reads_classRef : Reads .classRef :=
  reads_of_step fun _ _ _ _ _ => rfl

theorem reads_scalar (kind : Scalar) : Reads (.scalar kind) := by
  apply reads_of_step
  intro depth named rest _ _
  cases kind <;> rfl

theorem reads_anyObject : Reads .anyObject := by
  apply reads_of_step
  intro depth named rest _ delimits
  exact readType_plain (delimits.block rfl) delimits.name

theorem reads_block_none : Reads (.block none) := by
  apply reads_of_step
  intro depth named rest _ delimits
  exact readType_block delimits.angle

theorem reads_wrapped (wrapper : Wrapper) {inner : CType} (reads : Reads inner) :
    Reads (.wrapped wrapper inner) := by
  apply reads_of_step
  intro depth named rest enough delimits
  have nonempty := List.ne_nil_of_length_pos inner.length_encode_pos
  have enough' : inner.encode.length ≤ depth := by
    simpa [CType.encode] using enough
  have read := reads depth named rest enough' (delimits.tail nonempty)
  rw [CType.encode, List.cons_append, readType_wrapper, read]
  rfl

theorem isDigit_getLast_encodeNat (code : Char) (number : Nat) :
    (code :: encodeNat number).getLast?.any Char.isDigit = true := by
  have nonempty := encodeNat_ne_nil number
  rw [List.getLast?_cons_of_ne_nil nonempty, List.getLast?_eq_some_getLast nonempty, Option.any_some]
  exact isDigit_of_mem_encodeNat (List.getLast_mem nonempty)

theorem reads_bitfield {width : Nat} (representable : width < Quantity.bitfieldWidth.limit) :
    Reads (.bitfield width) := by
  apply reads_of_step
  intro depth named rest _ delimits
  have ends := delimits.digit (isDigit_getLast_encodeNat 'b' width)
  rw [CType.encode, List.cons_append, readType_bitfield, readQuantity_encodeNat representable ends]
  rfl

theorem reads_array {count : Nat} {element : CType}
    (representable : count < Quantity.arrayLength.limit) (reads : Reads element) :
    Reads (.array count element) := by
  apply reads_of_step
  intro depth named rest enough _
  have enough' : element.encode.length ≤ depth := by
    simp only [CType.encode, List.length_cons, List.length_append] at enough
    omega
  have read := reads depth false (']' :: rest) enough' (delimits_closer rfl (by simp) _ _)
  have ends := element.notDigit_encode_append (']' :: rest)
  rw [CType.encode_array_append, readType_array, readQuantity_encodeNat representable ends]
  simp only [Reading.andThen, Reading.found, closeArray, read, Reading.orUnknown]

/-- The text between the quotes of a restriction. -/
def restrictionText (className : Option String) (protocols : List String) : List Char :=
  (className.getD "").toList ++ protocols.flatMap fun protocol => '<' :: (protocol.toList ++ ['>'])

theorem unquoted_restrictionText {className : Option String} {protocols : List String}
    (isClass : className.all (isNameWithout ['"', '<']) = true)
    (areProtocols : protocols.all (isNameWithout ['"', '<', '>']) = true) :
    '"' ∉ restrictionText className protocols := by
  intro present
  rcases List.mem_append.mp present with inClass | inProtocols
  · cases className with
    | none => simp at inClass
    | some name =>
      obtain ⟨_, without⟩ := isNameWithout_iff.mp isClass
      exact without _ inClass (by simp)
  · obtain ⟨protocol, isProtocol, within⟩ := List.mem_flatMap.mp inProtocols
    obtain ⟨_, without⟩ := isNameWithout_iff.mp (List.all_eq_true.mp areProtocols _ isProtocol)
    simp only [List.mem_cons, List.mem_append, List.not_mem_nil, or_false] at within
    rcases within with opens | inside | closes
    · contradiction
    · exact without _ inside (by simp)
    · contradiction

/-- A restriction describes the object that it restricts. -/
theorem objectOfRestriction_restrictionText {className : Option String} {protocols : List String}
    (isClass : className.all (isNameWithout ['"', '<']) = true)
    (areProtocols : protocols.all (isNameWithout ['"', '<', '>']) = true) :
    objectOfRestriction (restrictionText className protocols) = .object className protocols := by
  have spelled : ∀ protocol ∈ protocols.map String.toList, protocol ≠ [] ∧ Unangled protocol := by
    intro protocol present
    obtain ⟨name, isProtocol, rfl⟩ := List.mem_map.mp present
    obtain ⟨nonempty, without⟩ := isNameWithout_iff.mp (List.all_eq_true.mp areProtocols _ isProtocol)
    constructor
    · exact nonempty
    · rintro c within (rfl | rfl)
      · exact without _ within (by simp)
      · exact without _ within (by simp)
  have unopened : ∀ c ∈ (className.getD "").toList, c ≠ '<' := by
    intro c present
    cases className with
    | none => simp at present
    | some name =>
      obtain ⟨_, without⟩ := isNameWithout_iff.mp isClass
      rintro rfl
      exact without _ present (by simp)
  have read := objectOfRestriction_word unopened spelled
  rw [List.flatMap_map] at read
  rw [restrictionText, read, List.map_map]
  congr 1
  · cases className with
    | none => simp
    | some name =>
      obtain ⟨nonempty, _⟩ := isNameWithout_iff.mp isClass
      simp [nonempty]
  · simp [Function.comp_def]

theorem reads_object {className : Option String} {protocols : List String}
    (isClass : className.all (isNameWithout ['"', '<']) = true)
    (areProtocols : protocols.all (isNameWithout ['"', '<', '>']) = true) :
    Reads (.object className protocols) := by
  by_cases restricted : className.isNone && protocols.isEmpty
  · obtain ⟨rfl, rfl⟩ : className = none ∧ protocols = [] := by simpa using restricted
    exact reads_anyObject
  · apply reads_of_step
    intro depth named rest _ delimits
    have unquoted := unquoted_restrictionText isClass areProtocols
    have encode_eq : (CType.object className protocols).encode ++ rest =
        '@' :: '"' :: (restrictionText className protocols ++ '"' :: rest) := by
      simp [CType.encode, encodeRestriction, restricted, encodeQuoted, restrictionText]
    have quotes : quotesRestriction named (restrictionText className protocols ++ '"' :: rest) = true := by
      cases named with
      | false => rfl
      | true =>
        cases rest with
        | nil =>
          obtain ⟨_, after⟩ := takeWhile_unquoted unquoted []
          simp only [quotesRestriction, after, ↓reduceIte]
        | cons next rest =>
          rw [quotesRestriction_word unquoted]
          rcases delimits.restriction rfl next rfl with rfl | rfl | rfl <;> rfl
    rw [encode_eq, readType_restricted quotes, readQuoted_name unquoted,
      ← objectOfRestriction_restrictionText isClass areProtocols]
    rfl

/-! ## Aggregates -/

/-- A name that is normal is written and read as it is, and a missing one as `?`. -/
theorem normalizeName_getD {shape : Shape} {name : Option String}
    (isName : name.all shape.isName = true) :
    CType.normalizeName (some (name.getD "?")) = name := by
  cases name with
  | none => rfl
  | some name =>
    simp only [Option.all_some, Shape.isName, isNameWithout, Bool.and_eq_true,
      decide_eq_true_eq] at isName
    obtain ⟨⟨nonempty, _⟩, notMark⟩ := isName
    simp [CType.normalizeName, nonempty, notMark]

theorem inside_name {shape : Shape} {name : Option String} (isName : name.all shape.isName = true) :
    ∀ c ∈ (name.getD "?").toList, c ≠ '=' ∧ c ≠ shape.closing := by
  intro c present
  cases name with
  | none =>
    obtain rfl : c = '?' := by simpa using present
    cases shape <;> simp [Shape.closing]
  | some name =>
    obtain ⟨isName, _⟩ : isNameWithout ['=', shape.closing] name = true ∧ name ≠ "?" := by
      simpa [Shape.isName] using isName
    have without := (isNameWithout_iff.mp isName).2 c present
    simpa using without

theorem reads_forward {shape : Shape} {name : Option String} (isName : name.all shape.isName = true) :
    Reads (.forward shape name) := by
  apply reads_of_step
  intro depth named rest _ _
  have encode_eq : (CType.forward shape name).encode ++ rest =
      shape.opening :: ((name.getD "?").toList ++ shape.closing :: rest) := by
    simp [CType.encode]
  have notComplete : decide (shape.closing = '=') = false := by cases shape <;> decide
  rw [encode_eq, readType_aggregate, readAggregateName_word (inside_name isName) (.inr rfl),
    notComplete, String.ofList_toList]
  dsimp only [Reading.andThen, Reading.found]
  rw [readBody, if_neg Bool.false_ne_true, normalizeName_getD isName]
  rfl

/-- Whether members are named shows in the first character after the equals sign. -/
theorem head_encodeMembers (shape : Shape) (members : List Member) (rest : List Char) :
    decide ((CType.encodeMembers (members.any (·.name.isSome)) members ++
      shape.closing :: rest).head? = some '"') = members.any (·.name.isSome) := by
  cases members with
  | nil => cases shape <;> rfl
  | cons member members =>
    obtain ⟨name, type, retention⟩ := member
    cases isNamed : (Member.mk name type retention :: members).any (·.name.isSome) with
    | true => rfl
    | false =>
      obtain ⟨code, others, encode_eq, opens⟩ := type.encode_eq_cons
      have notQuote : code ≠ '"' := (opensItem_iff.mp opens).2.2.2.1
      simp [CType.encodeMembers, encode_eq, notQuote]

theorem reads_aggregate {shape : Shape} {name : Option String} {members : List Member}
    (isName : name.all shape.isName = true)
    (reads : ReadsMembers (members.any (·.name.isSome)) members) :
    Reads (.aggregate shape name members) := by
  apply reads_of_step
  intro depth named rest enough _
  have enough' : (CType.encodeMembers (members.any (·.name.isSome)) members).length < depth := by
    simp only [CType.encode, List.length_cons, List.length_append] at enough
    omega
  have head := head_encodeMembers shape members rest
  rw [CType.encode_aggregate_append, readType_aggregate,
    readAggregateName_word (inside_name isName) (.inl rfl), String.ofList_toList]
  dsimp only [Reading.andThen, Reading.found]
  rw [readBody, if_pos (decide_eq_true rfl), head, reads depth shape _ rest enough',
    normalizeName_getD isName]
  rfl

/-! ## Members -/

theorem readsMembers_nil (named : Bool) : ReadsMembers named [] := by
  intro depth shape unclosed rest enough
  cases depth with
  | zero => contradiction
  | succ depth => exact readMembers_closing

/-- A name in a member list is written between quotes, and an empty one is none. -/
theorem memberName_getD {name : Option String} (isName : name.all (isNameWithout ['"']) = true) :
    memberName (name.getD "").toList = name := by
  cases name with
  | none => rfl
  | some name =>
    obtain ⟨nonempty, _⟩ := isNameWithout_iff.mp isName
    simp [memberName, nonempty]

theorem unquoted_getD {name : Option String} (isName : name.all (isNameWithout ['"']) = true) :
    '"' ∉ (name.getD "").toList := by
  cases name with
  | none => simp
  | some name =>
    intro present
    exact (isNameWithout_iff.mp isName).2 _ present (by simp)

/-- Among named members, the next name or the end of the aggregate delimits a type. -/
theorem delimits_named (shape : Shape) {members : List Member}
    (areNames : ∀ member ∈ members, member.name.all (isNameWithout ['"']) = true)
    (word rest : List Char) :
    Delimits true word (CType.encodeMembers true members ++ shape.closing :: rest) := by
  cases members with
  | nil => cases shape <;> exact delimits_closer rfl (by simp [Shape.closing]) word rest
  | cons member members =>
    have isName := areNames member (List.mem_cons_self ..)
    obtain ⟨name, type, retention⟩ := member
    obtain ⟨code, others, encode_eq, opens⟩ := type.encode_eq_cons
    have delimits := delimits_name (unquoted_getD isName) opens word
      (others ++ CType.encodeMembers true members ++ shape.closing :: rest)
    simpa [CType.encodeMembers, encodeQuoted, encode_eq] using delimits

/-- Outside of named members, the next item or the end of the aggregate delimits a type, unless the
two spell a block. -/
theorem delimits_unnamed (shape : Shape) (members : List Member) (rest : List Char)
    (block : word.getLast? = some '@' →
      (CType.encodeMembers false members ++ shape.closing :: rest).head? ≠ some '?') :
    Delimits false word (CType.encodeMembers false members ++ shape.closing :: rest) := by
  cases members with
  | nil => cases shape <;> exact delimits_closer rfl (by simp) word rest
  | cons member members =>
    obtain ⟨name, type, retention⟩ := member
    obtain ⟨code, others, encode_eq, opens⟩ := type.encode_eq_cons
    have delimits : Delimits false word (code :: (others ++ CType.encodeMembers false members ++
        shape.closing :: rest)) :=
      delimits_item opens (by simpa [CType.encodeMembers, encode_eq] using block) _
    simpa [CType.encodeMembers, encode_eq] using delimits

theorem keepsObjects_members (shape : Shape) (members : List Member) (rest : List Char) :
    keepsObjects (word :: members.map (·.type.encode)) = true ↔
      (word.getLast? = some '@' →
        (CType.encodeMembers false members ++ shape.closing :: rest).head? ≠ some '?') ∧
      keepsObjects (members.map (·.type.encode)) = true := by
  rw [keepsObjects_cons]
  cases members with
  | nil => cases shape <;> simp [CType.encodeMembers, Shape.closing]
  | cons member members =>
    obtain ⟨name, type, retention⟩ := member
    obtain ⟨code, others, encode_eq, _⟩ := type.encode_eq_cons
    simp [CType.encodeMembers, encode_eq]

variable {depth : Nat} {shape : Shape} {unclosed : Failure}

/-- A quoted name is read with the type after it, then the other members. -/
theorem readMembers_named {name : List Char} (unquoted : '"' ∉ name) (rest : List Char) :
    readMembers (depth + 1) shape named unclosed ('"' :: (name ++ '"' :: rest)) =
      (readMembers depth shape named unclosed (readType depth named rest).rest).map
        (Member.ofType (memberName name) (readType depth named rest).orUnknown :: ·) := by
  rw [readMembers_quote, readQuoted_name unquoted]
  rfl

/-- A type without a name is read, then the other members. -/
theorem readMembers_unnamed (type : CType) (rest : List Char) :
    readMembers (depth + 1) shape named unclosed (type.encode ++ rest) =
      (readMembers depth shape named unclosed (readType depth named (type.encode ++ rest)).rest).map
        (Member.ofType none (readType depth named (type.encode ++ rest)).orUnknown :: ·) := by
  obtain ⟨code, codes, type_eq, opens⟩ := type.encode_eq_cons
  obtain ⟨_, notCloser, _, notQuote, _⟩ := opensItem_iff.mp opens
  rw [type_eq, List.cons_append, readMembers_type notQuote notCloser]

theorem readsMembers_named {name : Option String} {type : CType} {members : List Member}
    (isName : name.all (isNameWithout ['"']) = true)
    (areNames : ∀ member ∈ members, member.name.all (isNameWithout ['"']) = true)
    (reads : Reads type) (others : ReadsMembers true members) :
    ReadsMembers true (.ofType name type :: members) := by
  intro depth shape unclosed rest enough
  cases depth with
  | zero => contradiction
  | succ depth =>
    have total := CType.length_encodeMembers_lt enough
    have read := reads depth true _ total.2 (delimits_named shape areNames type.encode rest)
    have after := others depth shape unclosed rest total.1
    rw [CType.encodeMembers_named_append]
    dsimp only [Member.ofType]
    rw [readMembers_named (unquoted_getD isName), read]
    simp only [Reading.found, Reading.orUnknown] at after ⊢
    rw [after, memberName_getD isName]
    rfl

theorem readsMembers_unnamed {type : CType} {members : List Member} (reads : Reads type)
    (others : ReadsMembers false members)
    (objects : keepsObjects (type.encode :: members.map (·.type.encode)) = true) :
    ReadsMembers false (.ofType none type :: members) := by
  intro depth shape unclosed rest enough
  cases depth with
  | zero => contradiction
  | succ depth =>
    have total := CType.length_encodeMembers_lt enough
    have apart := ((keepsObjects_members shape members rest).mp objects).1
    have read := reads depth false _ total.2 (delimits_unnamed shape members rest apart)
    have after := others depth shape unclosed rest total.1
    rw [CType.encodeMembers_unnamed_append, readMembers_unnamed]
    dsimp only [Member.ofType]
    rw [read]
    simp only [Reading.found, Reading.orUnknown] at after ⊢
    rw [after]
    rfl

/-! ## Parameters -/

/-- A type that begins with no `r`, and with `!` only before an array, is not taken for an attribute. -/
theorem CType.lacksAttribute_encode {type : CType} (notConst : type.encode.head? ≠ some 'r')
    (vector : type.encode.head? = some '!' → type.encode.tail.head? = some '[') (rest : List Char) :
    LacksAttribute (type.encode ++ rest) := by
  obtain ⟨code, codes, type_eq, opens⟩ := type.encode_eq_cons_opensType
  rw [type_eq] at notConst vector ⊢
  intro code' rest' same
  cases same
  simp only [opensType, Bool.and_eq_true, Bool.or_eq_true, decide_eq_true_eq,
    Option.isNone_iff_eq_none] at opens
  obtain ⟨_, (none | rfl) | rfl⟩ := opens
  · exact .inl none
  · exact absurd rfl notConst
  · have opensArray := vector rfl
    cases codes with
    | nil => contradiction
    | cons next codes => exact .inr ⟨rfl, opensArray⟩

/-- The type of a parameter that is told from its attributes is not taken for one. -/
theorem lacksAttribute_of_isDistinct {parameter : Parameter} (distinct : parameter.isDistinct = true)
    (rest : List Char) : LacksAttribute (parameter.type.encode ++ rest) := by
  simp only [Parameter.isDistinct, Bool.and_eq_true, Bool.or_eq_true, decide_eq_true_eq] at distinct
  obtain ⟨⟨notConst, vector⟩, _⟩ := distinct
  exact CType.lacksAttribute_encode notConst (fun isLegacy => vector.resolve_left (· isLegacy)) rest

/-- The next parameter or the end of the block delimits a type, unless the two spell a block. -/
theorem delimits_parameters (parameters : List Parameter) (rest : List Char)
    (block : word.getLast? = some '@' →
      (CType.encodeParameters parameters ++ '>' :: rest).head? ≠ some '?') :
    Delimits false word (CType.encodeParameters parameters ++ '>' :: rest) := by
  cases parameters with
  | nil => exact delimits_closer rfl (by simp) _ rest
  | cons next parameters =>
    obtain ⟨code, others, encode_eq, opens⟩ := next.encode_eq_cons
    have delimits : Delimits false word
        (code :: (others ++ (CType.encodeParameters parameters ++ '>' :: rest))) :=
      delimits_item opens (by simpa [CType.encodeParameters_cons, encode_eq] using block) _
    rw [CType.encodeParameters_cons, encode_eq]
    simpa using delimits

theorem keepsObjects_parameters (parameter : Parameter) (parameters : List Parameter)
    (rest : List Char) :
    keepsObjects ((parameter :: parameters).map Parameter.encode) = true ↔
      (parameter.type.encode.getLast? = some '@' →
        (CType.encodeParameters parameters ++ '>' :: rest).head? ≠ some '?') ∧
      keepsObjects (parameters.map Parameter.encode) = true := by
  have last : parameter.encode.getLast? = parameter.type.encode.getLast? := by
    obtain ⟨code, others, encode_eq, _⟩ := parameter.type.encode_eq_cons
    rw [Parameter.encode, List.getLast?_append, encode_eq, List.getLast?_cons, Option.some_or]
  rw [List.map_cons, keepsObjects_cons, last]
  cases parameters with
  | nil => simp [CType.encodeParameters]
  | cons next parameters =>
    obtain ⟨code, others, encode_eq, _⟩ := next.encode_eq_cons
    simp [CType.encodeParameters_cons, encode_eq]

theorem readsParameters_nil : ReadsParameters [] := by
  intro depth rest enough
  cases depth with
  | zero => contradiction
  | succ depth => rfl

/-- No offset stands between the parameters of an encoding. -/
theorem skipOffset_encodeParameters (parameters : List Parameter) (rest : List Char) :
    skipOffset (CType.encodeParameters parameters ++ '>' :: rest) =
      CType.encodeParameters parameters ++ '>' :: rest := by
  apply skipOffset_eq_self
  intro c first
  cases parameters with
  | nil =>
    cases first
    decide
  | cons parameter parameters =>
    obtain ⟨code, others, encode_eq, opens⟩ := parameter.encode_eq_cons
    rw [CType.encodeParameters_cons, encode_eq] at first
    cases first
    obtain ⟨digit, _, _, _, _, plus, minus⟩ := opensItem_iff.mp opens
    exact ⟨digit, plus, minus⟩

/-- The codes of attributes and the type after them are read as a parameter, then the others. -/
theorem readParameters_codes {inBlock : Bool} (flags : List Attribute) {type : CType}
    (lacks : LacksAttribute (type.encode ++ rest))
    (apart : flags.getLast? = some .legacy → type.encode.head? ≠ some '[') :
    readParameters (depth + 1) inBlock (flags.map Attribute.code ++ (type.encode ++ rest)) =
      (readParameters depth inBlock
        (skipOffset (readType depth false (type.encode ++ rest)).rest)).map
          (⟨flags.foldl Attributes.insert .none,
            (readType depth false (type.encode ++ rest)).orUnknown⟩ :: ·) := by
  obtain ⟨code, codes, type_eq, opens⟩ := type.encode_eq_cons
  have apart' : flags.getLast? = some .legacy → (type.encode ++ rest).head? ≠ some '[' := by
    simpa [type_eq] using apart
  have attributes := readAttributes_codes flags .none lacks apart'
  obtain ⟨_, notCloser, _⟩ := opensItem_iff.mp opens
  obtain ⟨first, others, text_eq, opens'⟩ := exists_cons_of_codes flags type rest
  obtain ⟨_, notCloser', notBlank, _⟩ := opensItem_iff.mp opens'
  have notEnd : ¬(inBlock = true ∧ first = '>') := by
    rintro ⟨_, rfl⟩
    contradiction
  have unblanked : (first :: others).dropWhile Text.isAsciiBlank = first :: others := by
    simp [notBlank]
  rw [text_eq] at attributes ⊢
  rw [type_eq, List.cons_append] at attributes ⊢
  exact readParameters_type unblanked notEnd attributes notCloser

/-- A parameter that is told from its attributes is read, then the others. -/
theorem readParameters_distinct {inBlock : Bool} {parameter : Parameter}
    (distinct : parameter.isDistinct = true) (rest : List Char) :
    readParameters (depth + 1) inBlock (parameter.encode ++ rest) =
      (readParameters depth inBlock
        (skipOffset (readType depth false (parameter.type.encode ++ rest)).rest)).map
          (⟨parameter.attributes,
            (readType depth false (parameter.type.encode ++ rest)).orUnknown⟩ :: ·) := by
  have notArray : parameter.attributes.toList.getLast? = some .legacy →
      parameter.type.encode.head? ≠ some '[' := by
    intro last
    have isLegacy : parameter.attributes.legacy = true :=
      Attributes.mem_toList.mp (List.mem_of_getLast? last)
    simp only [Parameter.isDistinct, isLegacy, Bool.and_eq_true, Bool.true_and] at distinct
    simpa using distinct.2
  rw [Parameter.encode, Attributes.encode, List.append_assoc,
    readParameters_codes _ (lacksAttribute_of_isDistinct distinct rest) notArray,
    Attributes.foldl_insert_toList]

theorem readsParameters_cons {parameter : Parameter} {parameters : List Parameter}
    (reads : Reads parameter.type) (others : ReadsParameters parameters)
    (distinct : parameter.isDistinct = true)
    (objects : keepsObjects ((parameter :: parameters).map Parameter.encode) = true) :
    ReadsParameters (parameter :: parameters) := by
  intro depth rest enough
  cases depth with
  | zero => contradiction
  | succ depth =>
    have total := CType.length_encodeParameters_lt enough
    have apart := ((keepsObjects_parameters parameter parameters rest).mp objects).1
    have read := reads depth false _ total.2 (delimits_parameters parameters rest apart)
    have after := others depth rest total.1
    rw [CType.encodeParameters_cons, List.append_assoc, readParameters_distinct distinct, read]
    simp only [Reading.found, Reading.orUnknown, skipOffset_encodeParameters] at after ⊢
    rw [after]
    cases parameter
    rfl

theorem reads_block {result : Parameter} {arguments : List Parameter}
    (reads : ReadsParameters (result :: arguments)) : Reads (.block (some ⟨result, arguments⟩)) := by
  apply reads_of_step
  intro depth named rest enough _
  have content := reads depth rest (CType.length_encodeParameters_lt_block enough)
  rw [CType.encode_block_append, readType_signature, content]
  rfl

/-! ## All types -/

/-- Parameters are read back together if every one's type is. -/
theorem readsParameters_of_reads {parameters : List Parameter}
    (reads : ∀ parameter ∈ parameters, Reads parameter.type)
    (distinct : parameters.all Parameter.isDistinct = true)
    (objects : keepsObjects (parameters.map Parameter.encode) = true) :
    ReadsParameters parameters := by
  induction parameters with
  | nil => exact readsParameters_nil
  | cons parameter parameters ih =>
    rw [List.all_cons, Bool.and_eq_true] at distinct
    have others := ih (fun other present => reads other (List.mem_cons_of_mem _ present)) distinct.2
      (keepsObjects_cons.mp objects).2
    exact readsParameters_cons (reads parameter (List.mem_cons_self ..)) others distinct.1 objects

/-- Members are read back together if every one's type is. -/
theorem readsMembers_of_reads {members : List Member}
    (reads : ∀ member ∈ members, Reads member.type)
    (spelled : CType.areMembersWellSpelled members = true)
    (objects : (members.any (·.name.isSome) || keepsObjects (members.map (·.type.encode))) = true) :
    ReadsMembers (members.any (·.name.isSome)) members := by
  cases isNamed : members.any (·.name.isSome) with
  | true =>
    clear objects isNamed
    induction members with
    | nil => exact readsMembers_nil true
    | cons member members ih =>
      obtain ⟨name, type, retention⟩ := member
      simp only [CType.areMembersWellSpelled, Bool.and_eq_true, decide_eq_true_eq] at spelled
      obtain ⟨⟨⟨isName, rfl⟩, _⟩, spelled⟩ := spelled
      have others := ih (fun other present => reads other (List.mem_cons_of_mem _ present)) spelled
      exact readsMembers_named isName (CType.areNames_of_areMembersWellSpelled spelled)
        (reads _ (List.mem_cons_self ..)) others
  | false =>
    rw [isNamed, Bool.false_or] at objects
    induction members with
    | nil => exact readsMembers_nil false
    | cons member members ih =>
      obtain ⟨name, type, retention⟩ := member
      simp only [CType.areMembersWellSpelled, Bool.and_eq_true, decide_eq_true_eq] at spelled
      obtain ⟨⟨⟨_, rfl⟩, _⟩, spelled⟩ := spelled
      rw [List.any_cons, Bool.or_eq_false_iff] at isNamed
      obtain rfl : name = none := by simpa using isNamed.1
      have others := ih (fun other present => reads other (List.mem_cons_of_mem _ present)) spelled
        (keepsObjects_cons.mp objects).2 isNamed.2
      exact readsMembers_unnamed (reads _ (List.mem_cons_self ..)) others objects

mutual

/-- A well-spelled type is read back from its encoding. -/
theorem reads_of_isWellSpelled : (type : CType) → type.isWellSpelled = true → Reads type
  | .unknown, _ => reads_unknown
  | .void, _ => reads_void
  | .scalar kind, _ => reads_scalar kind
  | .classRef, _ => reads_classRef
  | .block none, _ => reads_block_none
  | .object className protocols, spelled => by
    rw [CType.isWellSpelled, Bool.and_eq_true] at spelled
    exact reads_object spelled.1 spelled.2
  | .block (some ⟨⟨attributes, type⟩, arguments⟩), spelled => by
    simp only [CType.isWellSpelled, Bool.and_eq_true] at spelled
    obtain ⟨⟨⟨result, others⟩, distinct⟩, objects⟩ := spelled
    have resultReads := reads_of_isWellSpelled type result
    have othersRead := reads_of_areParametersWellSpelled arguments others
    have reads : ∀ parameter ∈ (⟨attributes, type⟩ :: arguments : List Parameter),
        Reads parameter.type := by
      intro parameter present
      rcases List.mem_cons.mp present with rfl | present
      · exact resultReads
      · exact othersRead parameter present
    exact reads_block (readsParameters_of_reads reads distinct objects)
  | .wrapped wrapper inner, spelled => by
    rw [CType.isWellSpelled] at spelled
    exact reads_wrapped wrapper (reads_of_isWellSpelled inner spelled)
  | .bitfield width, spelled => by
    rw [CType.isWellSpelled, decide_eq_true_eq] at spelled
    exact reads_bitfield spelled
  | .array count element, spelled => by
    simp only [CType.isWellSpelled, Bool.and_eq_true, decide_eq_true_eq] at spelled
    exact reads_array spelled.1 (reads_of_isWellSpelled element spelled.2)
  | .forward shape name, spelled => by
    rw [CType.isWellSpelled] at spelled
    exact reads_forward spelled
  | .aggregate shape name members, spelled => by
    simp only [CType.isWellSpelled, Bool.and_eq_true] at spelled
    obtain ⟨⟨isName, areSpelled⟩, objects⟩ := spelled
    have reads := reads_of_areMembersWellSpelled members areSpelled
    exact reads_aggregate isName (readsMembers_of_reads reads areSpelled objects)

theorem reads_of_areMembersWellSpelled : (members : List Member) →
    CType.areMembersWellSpelled members = true → ∀ member ∈ members, Reads member.type
  | [], _, _, present => by contradiction
  | ⟨_, type, _⟩ :: members, spelled, member, present => by
    simp only [CType.areMembersWellSpelled, Bool.and_eq_true] at spelled
    rcases List.mem_cons.mp present with rfl | present
    · exact reads_of_isWellSpelled type spelled.1.2
    · exact reads_of_areMembersWellSpelled members spelled.2 member present

theorem reads_of_areParametersWellSpelled : (parameters : List Parameter) →
    CType.areParametersWellSpelled parameters = true →
      ∀ parameter ∈ parameters, Reads parameter.type
  | [], _, _, present => by contradiction
  | ⟨_, type⟩ :: parameters, spelled, parameter, present => by
    simp only [CType.areParametersWellSpelled, Bool.and_eq_true] at spelled
    rcases List.mem_cons.mp present with rfl | present
    · exact reads_of_isWellSpelled type spelled.1
    · exact reads_of_areParametersWellSpelled parameters spelled.2 parameter present

end

/-- Reading undoes writing: the encoding of a well-spelled type is the encoding of that type alone. -/
theorem ofEncoding_encoding {type : CType} (spelled : type.isWellSpelled = true) :
    CType.ofEncoding type.encoding = .ok type := by
  have enough : type.encode.length ≤ type.encode.length + 1 := Nat.le_succ _
  have read := reads_of_isWellSpelled type spelled _ false [] enough (delimits_nil _)
  obtain ⟨code, rest, encode_eq, _⟩ := type.encode_eq_cons
  have nonempty : type.encode.isEmpty = false := by rw [encode_eq]; rfl
  rw [List.append_nil] at read
  simp [CType.ofEncoding, CType.encoding, CType.parse, CType.parsePrefix, nonempty, read,
    Reading.found, Except.bind]

/-- A named structure with a restricted object before another name, a bitfield, a block with
attributes and a union without names. -/
def nodeType : CType :=
  .aggregate .struct (some "Node")
    [.ofType (some "next") (.pointer (.forward .struct (some "Node"))),
      .ofType (some "owner") (.object (some "Owner") ["Keeping"]),
      .ofType (some "any") .anyObject,
      .ofType (some "flags") (.bitfield 3),
      .ofType (some "done") (.block (some ⟨⟨{ oneway := true }, .void⟩,
        [⟨.none, .block none⟩, ⟨{ legacy := true }, .wrapped .vector (.array 4 (.scalar .float))⟩]⟩)),
      .ofType none (.aggregate .union none [.ofType none .unknown, .ofType none .anyObject])]

theorem ofEncoding_encoding_nodeType :
    nodeType.isWellSpelled = true ∧ CType.ofEncoding nodeType.encoding = .ok nodeType := by
  have spelled : nodeType.isWellSpelled = true := by decide +kernel
  exact ⟨spelled, ofEncoding_encoding spelled⟩

end ForeignCall
