import Mathlib.Data.List.Nodup
import ForeignCall.Proofs.Signature.Spelling
import ForeignCall.Signature.Property

/-! # Texts of properties

However a property comes about, its attributes are of different kinds and carry a value exactly when
their kind has one (`Property.IsRegular`): what adds an attribute keeps this, and reading a text adds
attributes one by one. The text of such a property is read back part by part. Commas end the values,
which have none of their own, and the type, whose reader stops before a comma that it did not open.
-/

namespace ForeignCall

/-- An attribute whose text is read back: a value if the kind has one, without commas. -/
structure PropertyAttribute.IsRegular (part : PropertyAttribute) : Prop where
  value : part.value.isSome = part.kind.hasValue
  commaless : ∀ value, part.value = some value → ',' ∉ value.toList

namespace Property

/-- Attributes of different kinds, each of them regular. -/
structure IsRegular (property : Property) : Prop where
  nodup : (property.attributes.map (·.kind)).Nodup
  part : ∀ part ∈ property.attributes, part.IsRegular

variable {property result : Property} {kind : PropertyKind} {code : Char}
  {total text body rest : List Char} {count : Nat}

/-! ## Parts -/

/-- What follows a part in a text: nothing, or a comma and the next part. -/
def readOn (total : List Char) (count : Nat) (property : Property) :
    List Char → Except EncodingError Property
  | [] => .ok property
  | ',' :: next :: rest => readParts total count property (next :: rest)
  | rest => .error (.malformed (textBytes total - textBytes rest) .expectedComma)

theorem readParts_cons (total : List Char) (count : Nat) (property : Property) (code : Char)
    (body : List Char) :
    readParts total (count + 1) property (code :: body) =
      (readPart total property code body).bind fun after => readOn total count after.1 after.2 := by
  rw [readParts]
  rfl

theorem readOn_cases {count : Nat} (read : readOn total count property text = .ok result) :
    (text = [] ∧ result = property) ∨
      ∃ next others, text = ',' :: next :: others ∧
        readParts total count property (next :: others) = .ok result := by
  unfold readOn at read
  split at read
  · exact .inl ⟨rfl, (Except.ok.inj read).symm⟩
  · exact .inr ⟨_, _, rfl, read⟩
  · cases read

/-- A part gives the type or adds a regular attribute. -/
theorem readPart_cases (read : readPart total property code body = .ok (result, rest)) :
    (∃ type, CType.parsePrefix body = .ok (type, rest) ∧
      result = { property with type := some type }) ∨
    ∃ kind value, PropertyAttribute.IsRegular ⟨kind, value⟩ ∧ property.add kind value = .ok result ∧
      rest = body.dropWhile (· ≠ ',') := by
  unfold readPart at read
  dsimp only at read
  split at read
  next =>
    split at read
    · cases read
    · split at read
      next type left found =>
        cases read
        exact .inl ⟨type, found, rfl⟩
      next => cases read
  next =>
    split at read
    · cases read
    · next kind found =>
      split at read
      · cases read
      · rcases added : property.add kind
            (if kind.hasValue then some (String.ofList (body.takeWhile (· ≠ ','))) else none) with
          _ | changed
        · rw [added] at read
          cases read
        · rw [added] at read
          cases read
          refine .inr ⟨kind, _, ⟨?_, ?_⟩, added, rfl⟩
          · cases kind.hasValue <;> rfl
          · intro value same present
            cases valued : kind.hasValue <;> simp only [valued] at same <;> cases same
            rw [String.toList_ofList] at present
            simpa using of_mem_takeWhile present

/-! ## Regular properties -/

theorem has_iff : property.has kind = true ↔ kind ∈ property.attributes.map (·.kind) := by
  simp [has, attribute?]

theorem add_eq_ok {value : Option String} :
    property.add kind value = .ok result ↔
      kind ∉ property.attributes.map (·.kind) ∧
        result = { property with attributes := property.attributes ++ [⟨kind, value⟩] } := by
  rw [add, ← has_iff]
  cases property.has kind <;> simp [eq_comm]

theorem isRegular_ofType (type : Option CType) : IsRegular { type := type } :=
  ⟨List.nodup_nil, by simp⟩

namespace IsRegular

variable {part : PropertyAttribute} {parts : List PropertyAttribute}

theorem last (regular : IsRegular { property with attributes := property.attributes ++ part :: parts }) :
    part.IsRegular := regular.part part (by simp)

theorem fresh (regular : IsRegular { property with attributes := property.attributes ++ part :: parts }) :
    part.kind ∉ property.attributes.map (·.kind) := by
  intro present
  have nodup := regular.nodup
  rw [List.map_append, List.nodup_append] at nodup
  exact nodup.2.2 _ present _ (by simp) rfl

/-- What adds an attribute keeps the kinds apart. -/
theorem add {value : Option String} (regular : property.IsRegular)
    (added : PropertyAttribute.IsRegular ⟨kind, value⟩)
    (same : property.add kind value = .ok result) : result.IsRegular := by
  obtain ⟨fresh, rfl⟩ := add_eq_ok.mp same
  constructor
  · rw [List.map_append, List.nodup_append]
    refine ⟨regular.nodup, List.nodup_singleton _, fun other present last isLast => ?_⟩
    rw [List.map_singleton, List.mem_singleton] at isLast
    rintro rfl
    subst isLast
    exact fresh present
  · intro part present
    rcases List.mem_append.mp present with earlier | last
    · exact regular.part part earlier
    · rw [List.mem_singleton.mp last]
      exact added

theorem withFlag (regular : property.IsRegular) (same : property.withFlag kind = .ok result) :
    result.IsRegular := by
  rw [Property.withFlag] at same
  split at same
  · cases same
  · next flag =>
    refine regular.add ⟨?_, ?_⟩ same
    · simpa using flag
    · simp

theorem withValue {value : String} (regular : property.IsRegular) (commaless : ',' ∉ value.toList)
    (same : property.withValue kind value = .ok result) : result.IsRegular := by
  rw [Property.withValue] at same
  split at same
  · next valued =>
    refine regular.add ⟨?_, ?_⟩ same
    · simpa using valued.symm
    · simpa using commaless
  · cases same

theorem readPart (regular : property.IsRegular)
    (read : readPart total property code body = .ok (result, rest)) : result.IsRegular := by
  rcases readPart_cases read with ⟨type, _, rfl⟩ | ⟨kind, value, part, added, _⟩
  · exact ⟨regular.nodup, regular.part⟩
  · exact regular.add part added

/-- Reading a text keeps a property regular, part by part. -/
theorem readParts (regular : property.IsRegular)
    (read : readParts total count property text = .ok result) : result.IsRegular := by
  induction count generalizing property text with
  | zero =>
    cases text <;> cases read <;> exact regular
  | succ count ih =>
    cases text with
    | nil =>
      cases read
      exact regular
    | cons code body =>
      rw [readParts_cons] at read
      rcases part : Property.readPart total property code body with _ | ⟨after, rest⟩
      · rw [part] at read
        cases read
      · rw [part] at read
        have kept := regular.readPart part
        rcases readOn_cases read with ⟨_, rfl⟩ | ⟨next, others, _, onward⟩
        · exact kept
        · exact ih kept onward

end IsRegular

/-- The properties that come about by reading a text or by adding attributes to others. -/
inductive IsMade : Property → Prop where
  | empty : IsMade {}
  | parsed {text : String} {property : Property} (read : ofEncoding text = .ok property) :
    IsMade property
  | ofType (type : CType) : IsMade (ofType type)
  | withFlag {property result : Property} {kind : PropertyKind} (made : IsMade property)
    (added : property.withFlag kind = .ok result) : IsMade result
  | withValue {property result : Property} {kind : PropertyKind} {value : String}
    (made : IsMade property) (commaless : ',' ∉ value.toList)
    (added : property.withValue kind value = .ok result) : IsMade result

theorem IsMade.isRegular (made : property.IsMade) : property.IsRegular := by
  induction made with
  | empty => exact isRegular_ofType none
  | parsed read =>
    rw [ofEncoding, parse] at read
    split at read
    · cases read
    · exact (isRegular_ofType none).readParts read
  | ofType type => exact isRegular_ofType (some type)
  | withFlag _ added regular => exact regular.withFlag added
  | withValue _ commaless added regular => exact regular.withValue commaless added

/-! ## Reading back -/

/-- The texts of attributes, each after a comma. -/
def encodeFollowing (parts : List PropertyAttribute) : List Char :=
  parts.flatMap fun part => ',' :: encodeAttribute part

theorem intercalate_comma (first : List Char) (parts : List PropertyAttribute) :
    [','].intercalate (first :: parts.map encodeAttribute) = first ++ encodeFollowing parts := by
  induction parts generalizing first with
  | nil => simp [encodeFollowing]
  | cons part parts ih =>
    rw [List.map_cons, List.intercalate_cons_cons, ih, List.append_assoc]
    rfl

theorem encode_eq (property : Property) :
    property.encode =
      match property.type, property.attributes with
      | some type, parts => 'T' :: (type.encode ++ encodeFollowing parts)
      | none, part :: parts => encodeAttribute part ++ encodeFollowing parts
      | none, [] => [] := by
  rcases property with ⟨_ | type, _ | ⟨part, parts⟩⟩
  · rfl
  · exact intercalate_comma (encodeAttribute part) parts
  · exact intercalate_comma ('T' :: type.encode) []
  · exact intercalate_comma ('T' :: type.encode) (part :: parts)

/-- Text after a part begins with a comma. -/
theorem head_encodeFollowing {parts : List PropertyAttribute} {c : Char}
    (first : (encodeFollowing parts).head? = some c) : c = ',' := by
  cases parts with
  | nil => cases first
  | cons part parts => exact (Option.some.inj first).symm

/-- A type ends before a comma. -/
theorem readPart_type {type : CType} (again : CType.ofEncoding type.encoding = .ok type)
    (parts : List PropertyAttribute) :
    readPart total {} 'T' (type.encode ++ encodeFollowing parts) =
      .ok ({ type := some type }, encodeFollowing parts) := by
  have delimits : Delimits false type.encode (encodeFollowing parts) := by
    cases parts with
    | nil => exact delimits_nil _
    | cons part parts => exact delimits_item (by decide) (fun _ => by decide) _
  have read := reads_of_isWellSpelled type (CType.isWellSpelled_of_ofEncoding_encoding again)
    ((type.encode ++ encodeFollowing parts).length + 1) false _ (by simp; omega) delimits
  rw [readPart, CType.parsePrefix_eq_ok.mpr read]
  rfl

/-- A value ends before a comma. -/
theorem readPart_attribute {part : PropertyAttribute} (regular : part.IsRegular)
    (fresh : part.kind ∉ property.attributes.map (·.kind)) (parts : List PropertyAttribute) :
    readPart total property part.kind.code ((part.value.getD "").toList ++ encodeFollowing parts) =
      .ok ({ property with attributes := property.attributes ++ [part] }, encodeFollowing parts) := by
  have inside : ∀ c ∈ (part.value.getD "").toList, decide (c ≠ ',') = true := by
    intro c present
    rw [decide_eq_true_eq]
    rintro rfl
    cases value : part.value with
    | none => simp [value] at present
    | some word =>
      rw [value] at present
      exact regular.commaless word value present
  have stops : ∀ c, (encodeFollowing parts).head? = some c → decide (c ≠ ',') = false := by
    intro c first
    simp [head_encodeFollowing first]
  obtain ⟨word, after⟩ := takeWhile_word inside stops
  have isAttribute : part.kind.code ≠ 'T' := by cases part.kind <;> decide
  have added : property.add part.kind part.value =
      .ok { property with attributes := property.attributes ++ [part] } :=
    add_eq_ok.mpr ⟨fresh, rfl⟩
  simp only [readPart, isAttribute, ↓reduceIte, PropertyKind.ofCode?_code, word, after]
  rw [← regular.value]
  cases value : part.value with
  | none =>
    rw [value] at added
    simp [added, Except.map]
  | some payload =>
    rw [value] at added
    simp [added, Except.map]

/-- After a part, a text goes on with the next attribute. -/
theorem readOn_encodeFollowing (total : List Char) (count : Nat) (property : Property)
    (parts : List PropertyAttribute) :
    readOn total count property (encodeFollowing parts) =
      match parts with
      | [] => .ok property
      | part :: parts =>
        readParts total count property (encodeAttribute part ++ encodeFollowing parts) := by
  cases parts <;> rfl

theorem length_encodeFollowing (parts : List PropertyAttribute) :
    parts.length ≤ (encodeFollowing parts).length := by
  induction parts with
  | nil => exact Nat.le_refl 0
  | cons part parts ih =>
    rw [encodeFollowing, List.flatMap_cons, List.length_append, ← encodeFollowing]
    simp only [List.length_cons]
    omega

theorem readParts_attribute {part : PropertyAttribute} (regular : part.IsRegular)
    (fresh : part.kind ∉ property.attributes.map (·.kind)) (parts : List PropertyAttribute) :
    readParts total (count + 1) property (encodeAttribute part ++ encodeFollowing parts) =
      readOn total count { property with attributes := property.attributes ++ [part] }
        (encodeFollowing parts) := by
  rw [encodeAttribute, List.cons_append, readParts_cons, readPart_attribute regular fresh]
  rfl

/-- Attributes are read back one by one, behind those that are there already. -/
theorem readParts_attributes {part : PropertyAttribute} {parts : List PropertyAttribute}
    (enough : parts.length < count)
    (regular : IsRegular { property with attributes := property.attributes ++ part :: parts }) :
    readParts total count property (encodeAttribute part ++ encodeFollowing parts) =
      .ok { property with attributes := property.attributes ++ part :: parts } := by
  induction parts generalizing property part count with
  | nil =>
    obtain ⟨count, rfl⟩ := Nat.exists_eq_add_one.mpr enough
    rw [readParts_attribute regular.last regular.fresh, readOn_encodeFollowing]
  | cons next parts ih =>
    obtain ⟨count, rfl⟩ := Nat.exists_eq_add_one.mpr (Nat.zero_lt_of_lt enough)
    rw [readParts_attribute regular.last regular.fresh, readOn_encodeFollowing]
    have others := List.append_assoc property.attributes [part] (next :: parts)
    rw [List.singleton_append] at others
    rw [← others] at regular ⊢
    exact ih (Nat.lt_of_succ_lt_succ enough) regular

/-- A regular property is read back from its text if its type is. -/
theorem ofEncoding_encoding_of_isRegular (regular : property.IsRegular) (nonempty : property ≠ {})
    (again : ∀ type, property.type = some type → CType.ofEncoding type.encoding = .ok type) :
    ofEncoding property.encoding = .ok property := by
  rw [ofEncoding, encoding, String.toList_ofList, parse, encode_eq]
  rcases property with ⟨_ | type, parts⟩
  · cases parts with
    | nil => contradiction
    | cons part parts =>
      have enough := length_encodeFollowing parts
      dsimp only
      rw [if_neg (by simp [encodeAttribute])]
      refine readParts_attributes ?_ regular
      simp only [encodeAttribute, List.length_append, List.length_cons]
      omega
  · dsimp only
    rw [if_neg (by simp), List.length_cons, readParts_cons, readPart_type (again type rfl)]
    dsimp only [Except.bind]
    rw [readOn_encodeFollowing]
    cases parts with
    | nil => rfl
    | cons part parts =>
      have enough := length_encodeFollowing (part :: parts)
      rw [List.length_cons] at enough
      refine readParts_attributes ?_ regular
      rw [List.length_append]
      omega

/-- However a property comes about, no two of its attributes are of one kind, an attribute has a value
exactly when its kind does, and the text of the property is read as the property again. -/
theorem ofEncoding_encoding_of_isMade (made : property.IsMade) :
    (property.attributes.map (·.kind)).Nodup ∧
      (∀ part ∈ property.attributes, part.value.isSome = part.kind.hasValue) ∧
      (property ≠ {} →
        (∀ type, property.type = some type → CType.ofEncoding type.encoding = .ok type) →
          ofEncoding property.encoding = .ok property) :=
  ⟨made.isRegular.nodup, fun part present => (made.isRegular.part part present).value,
    ofEncoding_encoding_of_isRegular made.isRegular⟩

/-- A property whose type is written last and has a comma in its name. -/
def pairProperty : Property where
  type := some (.aggregate .struct (some "pair<int, int>") [.ofType none (.scalar .int)])
  attributes := [⟨.copy, none⟩, ⟨.ivar, some "_pair"⟩]

theorem ofEncoding_encoding_of_isMade_pair :
    ofEncoding "C,V_pair,T{pair<int, int>=i}" = .ok pairProperty ∧
      pairProperty.encoding = "T{pair<int, int>=i},C,V_pair" ∧
      ofEncoding pairProperty.encoding = .ok pairProperty := by
  have read : ofEncoding "C,V_pair,T{pair<int, int>=i}" = .ok pairProperty := by decide +kernel
  have text : pairProperty.encoding = "T{pair<int, int>=i},C,V_pair" := by decide +kernel
  have again : ∀ type, pairProperty.type = some type → CType.ofEncoding type.encoding = .ok type := by
    intro type same
    cases same
    decide +kernel
  exact ⟨read, text, (ofEncoding_encoding_of_isMade (.parsed read)).2.2 (by simp [pairProperty]) again⟩

end Property

end ForeignCall
