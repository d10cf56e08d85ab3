import Mathlib.Data.List.Basic
import ForeignCall.Proofs.Encoding.RoundTrip
import ForeignCall.Proofs.Encoding.Spelled

/-! # Reading an encoding again

Which types that were read come back from their encodings: exactly those whose neighbours are
separated (`ofEncoding_encoding_iff_isSeparated`). That separated types come back is the round trip
of well-spelled types. For the converse, a type is followed through the reading of its own encoding:
as long as every part is read as itself, the text after it is what was written there, and two
neighbours that spell a third thing would have been read as that (`NeedsSeparation`).
-/

namespace ForeignCall

variable {named : Bool} {rest : List Char}

/-- If the encoding of a type is read as that type, its neighbours are separated, and no `?` follows
if it ends in `@`. -/
def NeedsSeparation (type : CType) : Prop :=
  ∀ depth named rest, type.encode.length ≤ depth → Delimits named [] rest →
    (readType depth named (type.encode ++ rest)).result = .ok type →
      type.isSeparated = true ∧ (type.encode.getLast? = some '@' → rest.head? ≠ some '?')

namespace NeedsSeparation

variable {type : CType} {depth : Nat}

/-- A type that was read as itself leaves the text after its encoding. -/
theorem found (needs : NeedsSeparation type) (spelled : type.isSpelled = true)
    (enough : type.encode.length ≤ depth)
    (delimits : ∀ word, (word.getLast? = some '@' → rest.head? ≠ some '?') → Delimits named word rest)
    (read : (readType depth named (type.encode ++ rest)).result = .ok type) :
    readType depth named (type.encode ++ rest) = .found type rest := by
  obtain ⟨separated, block⟩ := needs depth named rest enough (delimits [] (by simp)) read
  have wellSpelled : type.isWellSpelled = true := by
    rw [CType.isWellSpelled_eq, spelled, separated, Bool.true_and]
  exact reads_of_isWellSpelled type wellSpelled depth named rest enough (delimits _ block)

end NeedsSeparation

/-- A type that stands for a part was read there: what is written as unknown is read as unknown. -/
theorem result_of_orUnknown {type : CType} {depth : Nat} (enough : type.encode.length ≤ depth)
    (same : (readType depth named (type.encode ++ rest)).orUnknown = type) :
    (readType depth named (type.encode ++ rest)).result = .ok type := by
  by_cases isUnknown : type = .unknown
  · subst isUnknown
    cases depth with
    | zero => contradiction
    | succ depth => rfl
  · exact (Reading.orUnknown_eq_iff isUnknown).mp same

/-! ## Types without members -/

/-- A type that holds no others and does not end in `@`. -/
theorem needsSeparation_of_last {type : CType} (separated : type.isSeparated = true)
    (last : type.encode.getLast? ≠ some '@') : NeedsSeparation type :=
  fun _ _ _ _ _ _ => ⟨separated, fun ends => absurd ends last⟩

theorem getLast?_encodeNat (number : Nat) (c : Char) :
    (c :: encodeNat number).getLast? ≠ some '@' := by
  intro last
  have digit := isDigit_getLast_encodeNat c number
  rw [last] at digit
  contradiction

theorem needsSeparation_object (className : Option String) (protocols : List String) :
    NeedsSeparation (.object className protocols) := by
  by_cases restricted : className.isNone && protocols.isEmpty
  · obtain ⟨rfl, rfl⟩ : className = none ∧ protocols = [] := by simpa using restricted
    intro depth named rest enough delimits read
    refine ⟨rfl, fun _ marked => ?_⟩
    obtain ⟨after, rfl⟩ := List.head?_eq_some_iff.mp marked
    obtain ⟨code, text, previous, text_eq, rfl, recognizes⟩ := recognizes_of_readType read
    cases text_eq
    obtain ⟨signature, isBlock⟩ := recognizes.eq_block
    cases isBlock
  · apply needsSeparation_of_last rfl
    simp [CType.encode, encodeRestriction, restricted, encodeQuoted, List.getLast?_cons]

/-! ## Wrapped types and arrays -/

theorem NeedsSeparation.wrapped {wrapper : Wrapper} {inner : CType}
    (needs : NeedsSeparation inner) : NeedsSeparation (.wrapped wrapper inner) := by
  intro depth named rest enough delimits read
  obtain ⟨code, text, previous, text_eq, rfl, recognizes⟩ := recognizes_of_readType read
  rw [CType.encode] at text_eq
  cases text_eq
  have enough' : inner.encode.length ≤ previous := by simpa [CType.encode] using enough
  have innerRead := result_of_orUnknown enough' recognizes.of_wrapped
  obtain ⟨separated, block⟩ := needs previous named rest enough' delimits innerRead
  have nonempty := List.ne_nil_of_length_pos inner.length_encode_pos
  rw [CType.isSeparated, CType.encode, List.getLast?_cons_of_ne_nil nonempty]
  exact ⟨separated, block⟩

theorem NeedsSeparation.array {count : Nat} {element : CType}
    (representable : count < Quantity.arrayLength.limit) (needs : NeedsSeparation element) :
    NeedsSeparation (.array count element) := by
  intro depth named rest enough delimits read
  obtain ⟨code, text, previous, text_eq, rfl, recognizes⟩ := recognizes_of_readType read
  rw [CType.encode_array_append] at text_eq
  cases text_eq
  obtain ⟨start, same⟩ := recognizes.of_array
  rw [readQuantity_encodeNat representable (element.notDigit_encode_append _)] at same
  have enough' : element.encode.length ≤ previous := by
    simp only [CType.encode, List.length_cons, List.length_append] at enough
    omega
  have elementRead := result_of_orUnknown enough' same
  have delimits' : Delimits false [] (']' :: rest) := delimits_closer rfl (by simp) [] rest
  rw [CType.isSeparated]
  refine ⟨(needs previous false _ enough' delimits' elementRead).1, fun last => ?_⟩
  simp [CType.encode, List.getLast?_cons] at last

/-! ## Aggregates -/

/-- A member type that was read as itself, with the text that it leaves. -/
theorem NeedsSeparation.part {type : CType} {depth : Nat} (needs : NeedsSeparation type)
    (spelled : type.isSpelled = true) (enough : type.encode.length ≤ depth)
    (delimits : ∀ word, (word.getLast? = some '@' → rest.head? ≠ some '?') → Delimits named word rest)
    (same : (readType depth named (type.encode ++ rest)).orUnknown = type) :
    (type.isSeparated = true ∧ (type.encode.getLast? = some '@' → rest.head? ≠ some '?')) ∧
      (readType depth named (type.encode ++ rest)).rest = rest := by
  have read := result_of_orUnknown enough same
  rw [needs.found spelled enough delimits read]
  exact ⟨needs depth named rest enough (delimits [] (by simp)) read, rfl⟩

theorem separated_of_readMembers_named {shape : Shape} {unclosed : Failure} {members : List Member}
    {depth : Nat} (needs : ∀ member ∈ members, NeedsSeparation member.type)
    (spelled : CType.areMembersSpelled members = true)
    (enough : (CType.encodeMembers true members).length < depth)
    (read : (readMembers depth shape true unclosed
      (CType.encodeMembers true members ++ shape.closing :: rest)).result = .ok members) :
    CType.areMembersSeparated members = true := by
  induction members generalizing depth with
  | nil => rfl
  | cons member members ih =>
    have areNames := CType.areNames_of_areMembersSpelled spelled
    obtain ⟨name, type, retention⟩ := member
    simp only [CType.areMembersSpelled, Bool.and_eq_true] at spelled
    obtain ⟨⟨⟨isName, _⟩, typeSpelled⟩, spelled⟩ := spelled
    cases depth with
    | zero => contradiction
    | succ depth =>
      have total := CType.length_encodeMembers_lt enough
      rw [CType.encodeMembers_named_append, readMembers_named (unquoted_getD isName)] at read
      obtain ⟨others, following, same⟩ := Reading.map_eq_ok.mp read
      obtain ⟨first, rfl⟩ := List.cons.inj same
      have type_eq := congrArg Member.type first
      have delimits := fun word => delimits_named shape
        (fun other present => areNames other (List.mem_cons_of_mem _ present)) word rest
      obtain ⟨⟨separated, _⟩, left⟩ :=
        (needs _ (List.mem_cons_self ..)).part typeSpelled total.2 (fun word _ => delimits word) type_eq
      rw [left] at following
      rw [CType.areMembersSeparated, Bool.and_eq_true]
      exact ⟨separated, ih (fun other present => needs other (List.mem_cons_of_mem _ present))
        spelled total.1 following⟩

theorem separated_of_readMembers_unnamed {shape : Shape} {unclosed : Failure}
    {members : List Member} {depth : Nat}
    (needs : ∀ member ∈ members, NeedsSeparation member.type)
    (spelled : CType.areMembersSpelled members = true)
    (enough : (CType.encodeMembers false members).length < depth)
    (read : (readMembers depth shape false unclosed
      (CType.encodeMembers false members ++ shape.closing :: rest)).result = .ok members) :
    CType.areMembersSeparated members = true ∧
      keepsObjects (members.map (·.type.encode)) = true := by
  induction members generalizing depth with
  | nil => exact ⟨rfl, rfl⟩
  | cons member members ih =>
    obtain ⟨name, type, retention⟩ := member
    simp only [CType.areMembersSpelled, Bool.and_eq_true] at spelled
    obtain ⟨⟨_, typeSpelled⟩, spelled⟩ := spelled
    cases depth with
    | zero => contradiction
    | succ depth =>
      have total := CType.length_encodeMembers_lt enough
      rw [CType.encodeMembers_unnamed_append, readMembers_unnamed] at read
      obtain ⟨others, following, same⟩ := Reading.map_eq_ok.mp read
      obtain ⟨first, rfl⟩ := List.cons.inj same
      have type_eq := congrArg Member.type first
      obtain ⟨⟨separated, apart⟩, left⟩ := (needs _ (List.mem_cons_self ..)).part typeSpelled
        total.2 (fun _ => delimits_unnamed shape others rest) type_eq
      rw [left] at following
      obtain ⟨othersSeparated, objects⟩ :=
        ih (fun other present => needs other (List.mem_cons_of_mem _ present)) spelled total.1
          following
      rw [CType.areMembersSeparated, Bool.and_eq_true, List.map_cons,
        keepsObjects_members shape others rest]
      exact ⟨⟨separated, othersSeparated⟩, apart, objects⟩

theorem NeedsSeparation.aggregate {shape : Shape} {name : Option String} {members : List Member}
    (isName : name.all shape.isName = true) (spelled : CType.areMembersSpelled members = true)
    (needs : ∀ member ∈ members, NeedsSeparation member.type) :
    NeedsSeparation (.aggregate shape name members) := by
  intro depth named rest enough delimits read
  obtain ⟨code, text, previous, text_eq, rfl, recognizes⟩ := recognizes_of_readType read
  rw [CType.encode_aggregate_append] at text_eq
  cases text_eq
  obtain ⟨start, unclosed, inside⟩ := recognizes.of_aggregate
  rw [readAggregateName_word (inside_name isName) (.inl rfl)] at inside
  simp only [Reading.found, head_encodeMembers shape members rest] at inside
  have enough' : (CType.encodeMembers (members.any (·.name.isSome)) members).length < previous := by
    simp only [CType.encode, List.length_cons, List.length_append] at enough
    omega
  constructor
  · rw [CType.isSeparated]
    cases isNamed : members.any (·.name.isSome) with
    | true =>
      rw [isNamed] at inside enough'
      simp [separated_of_readMembers_named needs spelled enough' inside]
    | false =>
      rw [isNamed] at inside enough'
      simp [separated_of_readMembers_unnamed needs spelled enough' inside]
  · intro last
    cases shape <;>
      simp [CType.encode, List.getLast?_cons, List.getLast?_append, Shape.closing] at last

/-! ## Attributes -/

variable {text : List Char}

/-- Attributes are read as far as there are any. -/
theorem lacks_of_readAttributes {set attributes : Attributes}
    (read : readAttributes set rest = (attributes, text)) : LacksAttribute text := by
  induction rest generalizing set with
  | nil =>
    cases read
    intro code after same
    contradiction
  | cons code rest ih =>
    rw [readAttributes] at read
    split at read
    next vector =>
      cases read
      intro code' after same
      cases same
      exact .inr vector
    next =>
      split at read
      next => exact ih read
      next unknown =>
        cases read
        intro code' after same
        cases same
        exact .inl unknown

/-- The code of the legacy attribute is written last. -/
theorem toList_of_legacy {set : Attributes} (isLegacy : set.legacy = true) :
    set.toList = { set with legacy := false }.toList ++ [.legacy] := by
  have split : Attribute.all =
      [.const, .input, .inputOutput, .output, .byCopy, .byReference, .oneway] ++ [.legacy] := rfl
  have last : [Attribute.legacy].filter set.contains = [.legacy] := by
    simp [Attributes.contains, isLegacy]
  have cut : [Attribute.legacy].filter { set with legacy := false }.contains = [] := rfl
  rw [Attributes.toList, Attributes.toList, split, List.filter_append, List.filter_append, last, cut,
    List.append_nil]
  rfl

/-- The `!` of a vector whose element is not an array is read as an attribute. -/
theorem readAttributes_legacy (set : Attributes) {code : Char} (notArray : code ≠ '[')
    (unknown : Attribute.ofCode? code = none) (after : List Char) :
    (readAttributes .none (set.encode ++ '!' :: code :: after)).2 = code :: after := by
  have lacks : LacksAttribute (code :: after) := by
    intro code' after' same
    cases same
    exact .inl unknown
  have read := readAttributes_codes (set.toList ++ [.legacy]) .none lacks (by simpa using notArray)
  rw [List.map_append, List.append_assoc] at read
  exact congrArg Prod.snd read

/-- The legacy attribute before an array is read as the code of a vector. -/
theorem readAttributes_vector {set : Attributes} (isLegacy : set.legacy = true)
    (after : List Char) :
    (readAttributes .none (set.encode ++ '[' :: after)).1 = { set with legacy := false } := by
  have lacks : LacksAttribute ('!' :: '[' :: after) := by
    intro code' after' same
    cases same
    exact .inr ⟨rfl, rfl⟩
  have read := readAttributes_codes { set with legacy := false }.toList .none lacks (by simp)
  rw [Attributes.foldl_insert_toList] at read
  rw [Attributes.encode, toList_of_legacy isLegacy, List.map_append, List.append_assoc]
  exact congrArg Prod.fst read

/-- The type of a parameter that was read as itself is told from its attributes. -/
theorem isDistinct_of_read {parameter : Parameter} (depth : Nat)
    (attributes : readAttributes .none (parameter.encode ++ rest) = (parameter.attributes, text))
    (type : parameter.type = .unknown ∨
      (readType depth false text).orUnknown = parameter.type) : parameter.isDistinct = true := by
  obtain ⟨set, type'⟩ := parameter
  simp only [Parameter.encode, List.append_assoc] at attributes type
  by_cases isUnknown : type' = .unknown
  · subst isUnknown
    simp [Parameter.isDistinct, CType.encode]
  have same := type.resolve_left isUnknown
  have read := (Reading.orUnknown_eq_iff isUnknown).mp same
  obtain ⟨code, after, previous, rfl, _, recognizes⟩ := recognizes_of_readType read
  have head := recognizes.head_eq
  have lacks := lacks_of_readAttributes attributes code after rfl
  have notConst : code ≠ 'r' := by
    rintro rfl
    rcases lacks with unknown | ⟨isVector, _⟩ <;> contradiction
  -- Only `![` is left to be read as a type; what follows is an array, or unknown if that failed, and
  -- a vector of an unknown type would have lost its code to the attributes.
  have vector : code = '!' → type'.encode.tail.head? = some '[' := by
    rintro rfl
    obtain unknown | ⟨_, opens⟩ := lacks
    · contradiction
    rw [recognizes.eq_vector] at attributes ⊢
    rcases orUnknown_cases previous false after with unknown | innerHead
    · rw [unknown] at attributes
      have left := congrArg Prod.snd attributes
      simp [CType.encode, Wrapper.code, readAttributes_legacy, Attribute.ofCode?] at left
    · exact innerHead.trans opens
  have notArray : set.legacy = true → code ≠ '[' := by
    rintro isLegacy rfl
    obtain ⟨others, encode_eq⟩ := List.head?_eq_some_iff.mp head
    rw [encode_eq, List.cons_append] at attributes
    have dropped := congrArg Prod.fst attributes
    rw [readAttributes_vector isLegacy] at dropped
    have legacy := congrArg Attributes.legacy dropped
    simp [isLegacy] at legacy
  simp only [Parameter.isDistinct, head, ne_eq, Option.some.injEq, Bool.and_eq_true,
    Bool.or_eq_true, decide_eq_true_eq, Bool.not_eq_true', Bool.and_eq_false_imp,
    decide_eq_false_iff_not]
  exact ⟨⟨notConst, Decidable.not_or_of_imp vector⟩, notArray⟩

/-! ## Blocks -/

theorem isDistinct_of_readParameters {inBlock : Bool} {parameter : Parameter}
    {parameters : List Parameter} {depth : Nat}
    (read : (readParameters (depth + 1) inBlock (parameter.encode ++ rest)).result =
      .ok (parameter :: parameters)) : parameter.isDistinct = true := by
  obtain ⟨code, codes, encode_eq, opens⟩ := parameter.encode_eq_cons
  obtain ⟨_, notCloser, notBlank, _⟩ := opensItem_iff.mp opens
  have notEnd : ¬(inBlock = true ∧ code = '>') := by
    rintro ⟨_, rfl⟩
    contradiction
  have text_eq : parameter.encode ++ rest = code :: (codes ++ rest) := by simp [encode_eq]
  have unblanked : (parameter.encode ++ rest).dropWhile Text.isAsciiBlank =
      code :: (codes ++ rest) := by simp [encode_eq, notBlank]
  rcases attributes : readAttributes .none (parameter.encode ++ rest) with ⟨set, _ | ⟨next, text⟩⟩
  · rw [readParameters_untyped unblanked notEnd (text_eq ▸ attributes)] at read
    contradiction
  cases closes : isCloser next with
  | true =>
    rw [readParameters_stray unblanked notEnd (text_eq ▸ attributes) closes] at read
    obtain ⟨others, _, same⟩ := Reading.map_eq_ok.mp read
    obtain ⟨rfl, rfl⟩ := List.cons.inj same
    exact isDistinct_of_read depth attributes (.inl rfl)
  | false =>
    rw [readParameters_type unblanked notEnd (text_eq ▸ attributes) closes] at read
    obtain ⟨others, _, same⟩ := Reading.map_eq_ok.mp read
    obtain ⟨rfl, rfl⟩ := List.cons.inj same
    exact isDistinct_of_read depth attributes (.inr rfl)

theorem separated_of_readParameters {parameters : List Parameter} {depth : Nat}
    (needs : ∀ parameter ∈ parameters, NeedsSeparation parameter.type)
    (spelled : CType.areParametersSpelled parameters = true)
    (enough : (CType.encodeParameters parameters).length < depth)
    (read : (readParameters depth true
      (CType.encodeParameters parameters ++ '>' :: rest)).result = .ok parameters) :
    CType.areParametersSeparated parameters = true ∧
      parameters.all Parameter.isDistinct = true ∧
        keepsObjects (parameters.map Parameter.encode) = true := by
  induction parameters generalizing depth with
  | nil => exact ⟨rfl, rfl, rfl⟩
  | cons parameter parameters ih =>
    cases depth with
    | zero => contradiction
    | succ depth =>
      have total := CType.length_encodeParameters_lt enough
      rw [CType.encodeParameters_cons, List.append_assoc] at read
      have distinct := isDistinct_of_readParameters read
      have typeSpelled := CType.areParametersSpelled_cons.mp spelled
      rw [readParameters_distinct distinct] at read
      obtain ⟨others, following, same⟩ := Reading.map_eq_ok.mp read
      obtain ⟨first, rfl⟩ := List.cons.inj same
      have type_eq := congrArg Parameter.type first
      obtain ⟨⟨separated, apart⟩, left⟩ := (needs _ (List.mem_cons_self ..)).part typeSpelled.1
        total.2 (fun _ => delimits_parameters others rest) type_eq
      rw [left, skipOffset_encodeParameters] at following
      obtain ⟨othersSeparated, othersDistinct, objects⟩ :=
        ih (fun other present => needs other (List.mem_cons_of_mem _ present)) typeSpelled.2 total.1
          following
      refine ⟨?_, ?_, (keepsObjects_parameters parameter others rest).mpr ⟨apart, objects⟩⟩
      · cases parameter
        rw [CType.areParametersSeparated, Bool.and_eq_true]
        exact ⟨separated, othersSeparated⟩
      · rw [List.all_cons, distinct, othersDistinct, Bool.and_true]

theorem NeedsSeparation.block {result : Parameter} {arguments : List Parameter}
    (spelled : CType.areParametersSpelled (result :: arguments) = true)
    (needs : ∀ parameter ∈ result :: arguments, NeedsSeparation parameter.type) :
    NeedsSeparation (.block (some ⟨result, arguments⟩)) := by
  intro depth named rest enough delimits read
  obtain ⟨code, text, previous, text_eq, rfl, recognizes⟩ := recognizes_of_readType read
  obtain ⟨inner, rfl, inside⟩ := recognizes.of_block
  rw [CType.encode_block_append] at text_eq
  simp only [List.cons.injEq, true_and] at text_eq
  obtain ⟨rfl, rfl⟩ := text_eq
  have enough' := CType.length_encodeParameters_lt_block enough
  obtain ⟨separated, distinct, objects⟩ := separated_of_readParameters needs spelled enough' inside
  constructor
  · obtain ⟨attributes, type⟩ := result
    rw [CType.areParametersSeparated] at separated
    rw [CType.isSeparated, separated, distinct, objects]
    rfl
  · intro last
    cases result
    simp [CType.encode, List.getLast?_cons, List.getLast?_append] at last

/-! ## All types -/

mutual

/-- Every spelled type needs separation to be read as itself. -/
theorem needsSeparation_of_isSpelled : (type : CType) → type.isSpelled = true →
    NeedsSeparation type
  | .unknown, _ | .void, _ | .classRef, _ | .block none, _ =>
    needsSeparation_of_last rfl (by simp [CType.encode])
  | .scalar kind, _ => needsSeparation_of_last rfl (by cases kind <;> simp [CType.encode, Scalar.code])
  | .object className protocols, _ => needsSeparation_object className protocols
  | .bitfield width, _ => needsSeparation_of_last rfl (getLast?_encodeNat width 'b')
  | .forward shape name, _ => by
    apply needsSeparation_of_last rfl
    cases shape <;> simp [CType.encode, List.getLast?_cons, List.getLast?_append, Shape.closing]
  | .wrapped wrapper inner, spelled => by
    rw [CType.isSpelled] at spelled
    exact (needsSeparation_of_isSpelled inner spelled).wrapped
  | .array count element, spelled => by
    simp only [CType.isSpelled, Bool.and_eq_true, decide_eq_true_eq] at spelled
    exact (needsSeparation_of_isSpelled element spelled.2).array spelled.1
  | .block (some ⟨⟨attributes, type⟩, arguments⟩), spelled => by
    rw [CType.isSpelled] at spelled
    refine .block spelled (List.forall_mem_cons.mpr ?_)
    rw [Bool.and_eq_true] at spelled
    exact ⟨needsSeparation_of_isSpelled type spelled.1,
      needsSeparation_of_areParametersSpelled arguments spelled.2⟩
  | .aggregate shape name members, spelled => by
    rw [CType.isSpelled, Bool.and_eq_true] at spelled
    exact .aggregate spelled.1 spelled.2 (needsSeparation_of_areMembersSpelled members spelled.2)

theorem needsSeparation_of_areMembersSpelled : (members : List Member) →
    CType.areMembersSpelled members = true → ∀ member ∈ members, NeedsSeparation member.type
  | [], _, _, present => by contradiction
  | ⟨_, type, _⟩ :: members, spelled, member, present => by
    simp only [CType.areMembersSpelled, Bool.and_eq_true] at spelled
    rcases List.mem_cons.mp present with rfl | present
    · exact needsSeparation_of_isSpelled type spelled.1.2
    · exact needsSeparation_of_areMembersSpelled members spelled.2 member present

theorem needsSeparation_of_areParametersSpelled : (parameters : List Parameter) →
    CType.areParametersSpelled parameters = true →
      ∀ parameter ∈ parameters, NeedsSeparation parameter.type
  | [], _, _, present => by contradiction
  | ⟨_, type⟩ :: parameters, spelled, parameter, present => by
    simp only [CType.areParametersSpelled, Bool.and_eq_true] at spelled
    rcases List.mem_cons.mp present with rfl | present
    · exact needsSeparation_of_isSpelled type spelled.1
    · exact needsSeparation_of_areParametersSpelled parameters spelled.2 parameter present

end

/-- A type that was read, from whatever text, is read again from its encoding exactly if its
neighbours are separated. -/
theorem ofEncoding_encoding_iff_isSeparated {text : String} {type : CType}
    (read : CType.ofEncoding text = .ok type) :
    CType.ofEncoding type.encoding = .ok type ↔ type.isSeparated = true := by
  have spelled := CType.isSpelled_of_ofEncoding read
  have enough : type.encode.length ≤ type.encode.length + 1 := Nat.le_succ _
  rw [CType.ofEncoding_eq_ok, CType.encoding, String.toList_ofList]
  constructor
  · intro again
    have result : (readType (type.encode.length + 1) false (type.encode ++ [])).result =
        .ok type := by
      rw [List.append_nil, again]
      rfl
    exact (needsSeparation_of_isSpelled type spelled _ _ _ enough (delimits_nil _) result).1
  · intro separated
    have wellSpelled : type.isWellSpelled = true := by
      rw [CType.isWellSpelled_eq, spelled, separated, Bool.true_and]
    have again := reads_of_isWellSpelled type wellSpelled _ false [] enough (delimits_nil _)
    rwa [List.append_nil] at again

-- A vector without an element, and an array after attributes that are written in another order.
example : (CType.ofEncoding "@?<v![>").map CType.isSeparated = .ok false := by decide +kernel
example : (CType.ofEncoding "@?<v!n[4i]>").map CType.isSeparated = .ok false := by decide +kernel

/-- A structure with an unknown member, as it is read from a malformed one. -/
def degradedType : CType :=
  .aggregate .struct (some "S") [.ofType none .unknown, .ofType none (.scalar .int)]

theorem ofEncoding_encoding_iff_isSeparated_degraded :
    CType.ofEncoding "{S=Zi}" = .ok degradedType ∧
      CType.ofEncoding degradedType.encoding = .ok degradedType := by
  have read : CType.ofEncoding "{S=Zi}" = .ok degradedType := by decide +kernel
  have separated : degradedType.isSeparated = true := by decide +kernel
  exact ⟨read, (ofEncoding_encoding_iff_isSeparated read).mpr separated⟩

/-- An object before an unknown member. -/
def fusedType : CType :=
  .aggregate .struct (some "S") [.ofType none .anyObject, .ofType none .unknown]

/-- An object and the unknown member after it are read again as one block. -/
theorem ofEncoding_encoding_fusedType :
    CType.ofEncoding "{S=@Z}" = .ok fusedType ∧
      CType.ofEncoding fusedType.encoding =
        .ok (.aggregate .struct (some "S") [.ofType none (.block none)]) ∧
      CType.ofEncoding fusedType.encoding ≠ .ok fusedType := by
  have again : CType.ofEncoding fusedType.encoding =
      .ok (.aggregate .struct (some "S") [.ofType none (.block none)]) := by decide +kernel
  refine ⟨by decide +kernel, again, ?_⟩
  rw [again]
  simp [fusedType]

end ForeignCall
