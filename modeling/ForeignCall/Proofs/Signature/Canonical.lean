import ForeignCall.Proofs.Signature.Spelling

/-! # Reading the encoding of a signature again

An encoding writes a number after every parameter: the size of the frame after the result, its offset
after an argument. A signature that was read comes back from its encoding exactly if every parameter
does (`Signature.ofEncoding_encoding_iff_isKept`). For that, the type must be separated within, told
from the attributes before it and told from the number after it. The last fails for types that end in
a width, because the digits of the number go on with those of the width; only zero after zero stays
what it is.
-/

namespace ForeignCall

/-- Whether a parameter is told from the number after it, and its parts from each other. -/
@[mk_iff]
structure Parameter.IsKept (parameter : Parameter) (number : Nat) : Prop where
  separated : parameter.type.isSeparated = true
  distinct : parameter.isDistinct = true
  width : ∀ width ∈ parameter.type.lastWidth?, width = 0 ∧ number = 0

instance (parameter : Parameter) (number : Nat) : Decidable (parameter.IsKept number) :=
  decidable_of_iff' _ (parameter.isKept_iff number)

variable {rest : List Char} {width number depth : Nat}

/-! ## Numbers after widths -/

/-- The digits of a number after those of another make a larger one, but for zero after zero. -/
theorem ofDigitChars_encodeNat_append :
    Nat.ofDigitChars 10 (encodeNat width ++ encodeNat number) 0 = width ↔
      width = 0 ∧ number = 0 := by
  have digits : 0 < (encodeNat number).length := List.length_pos_of_ne_nil (encodeNat_ne_nil number)
  have value : Nat.ofDigitChars 10 (encodeNat width ++ encodeNat number) 0 =
      10 ^ (encodeNat number).length * width + number := by
    rw [Nat.ofDigitChars_append, Nat.ofDigitChars_eq_ofDigitChars_zero, encodeNat, encodeNat,
      Nat.ofDigitChars_ten_toDigits, Nat.ofDigitChars_ten_toDigits]
  have grows : 10 * width ≤ 10 ^ (encodeNat number).length * width :=
    Nat.mul_le_mul_right width (Nat.le_self_pow (Nat.ne_of_gt digits) 10)
  rw [value]
  constructor
  · intro same
    omega
  · rintro ⟨rfl, rfl⟩
    rfl

/-- A width with a number after it is read as that width only if both are zero. -/
theorem readQuantity_encodeNat_append {quantity : Quantity} (start : List Char) (number : Nat)
    (representable : width < quantity.limit) (ends : ∀ c, rest.head? = some c → c.isDigit = false) :
    (readQuantity quantity start (encodeNat width ++ (encodeNat number ++ rest))).rest = rest ∧
      ((readQuantity quantity start (encodeNat width ++ (encodeNat number ++ rest))).result = .ok width ↔
        width = 0 ∧ number = 0) := by
  have nonempty : encodeNat width ++ encodeNat number ≠ [] :=
    List.append_ne_nil_of_left_ne_nil (encodeNat_ne_nil width) _
  have areDigits : ∀ c ∈ encodeNat width ++ encodeNat number, c.isDigit = true := by
    intro c present
    rcases List.mem_append.mp present with inWidth | inNumber
    · exact isDigit_of_mem_encodeNat inWidth
    · exact isDigit_of_mem_encodeNat inNumber
  rw [← List.append_assoc, readQuantity_digits quantity nonempty areDigits ends,
    ← ofDigitChars_encodeNat_append]
  split
  next => simp [Reading.found]
  next overflows =>
    have different : Nat.ofDigitChars 10 (encodeNat width ++ encodeNat number) 0 ≠ width := by
      intro same
      rw [same] at overflows
      exact overflows representable
    simp [Reading.failed, different]

/-! ## Types before numbers -/

/-- A type that ends in a width takes the digits after it, so it is read as itself only if nothing but
zero stands there. -/
theorem readType_lastWidth {type : CType} (isWidth : type.lastWidth? = some width)
    (spelled : type.isSpelled = true) (enough : type.encode.length ≤ depth)
    (ends : ∀ c, rest.head? = some c → c.isDigit = false) :
    (readType depth false (type.encode ++ (encodeNat number ++ rest))).rest = rest ∧
      ((readType depth false (type.encode ++ (encodeNat number ++ rest))).orUnknown = type ↔
        width = 0 ∧ number = 0) := by
  -- Wrappers lead down to the bitfield, and leave the text behind it alone.
  induction type using CType.lastWidth?.induct generalizing depth with
  | case1 own =>
    cases isWidth
    rw [CType.isSpelled, decide_eq_true_eq] at spelled
    cases depth with
    | zero => contradiction
    | succ depth =>
      obtain ⟨left, same⟩ := readQuantity_encodeNat_append
        ('b' :: (encodeNat width ++ (encodeNat number ++ rest))) number spelled ends
      rw [CType.encode, List.cons_append, readType_bitfield, ← same,
        Reading.orUnknown_eq_iff (by simp), Reading.map_eq_ok]
      exact ⟨left, by simp⟩
  | case2 wrapper inner ih =>
    rw [CType.isSpelled] at spelled
    cases depth with
    | zero => contradiction
    | succ depth =>
      have enough' : inner.encode.length ≤ depth := by simpa [CType.encode] using enough
      obtain ⟨left, same⟩ := ih isWidth spelled enough'
      rw [CType.encode, List.cons_append, readType_wrapper, ← same]
      exact ⟨left, by simp [Reading.found, Reading.orUnknown]⟩
  | case3 type notBitfield notWrapped =>
    rw [CType.lastWidth?] at isWidth
    · contradiction
    · exact notBitfield
    · exact notWrapped

theorem isSeparated_of_lastWidth {type : CType} (isWidth : type.lastWidth? = some width) :
    type.isSeparated = true := by
  induction type using CType.lastWidth?.induct with
  | case1 own => rfl
  | case2 wrapper inner ih => exact ih isWidth
  | case3 type notBitfield notWrapped =>
    rw [CType.lastWidth?] at isWidth
    · contradiction
    · exact notBitfield
    · exact notWrapped

/-- A number delimits every word that does not end in a number itself. -/
theorem delimits_encodeNat {word : List Char} (noDigit : word.getLast?.any Char.isDigit = false)
    (ends : EndsParameter rest) : Delimits false word (encodeNat number ++ rest) := by
  apply (isOffset_encodeNat number).delimits ends
  · simp [noDigit]
  · intro _ mark
    obtain ⟨digit, digits, number_eq⟩ := List.exists_cons_of_ne_nil (encodeNat_ne_nil number)
    have isDigit : digit.isDigit = true := isDigit_of_mem_encodeNat (number_eq ▸ List.mem_cons_self ..)
    rw [number_eq] at mark
    cases mark
    contradiction

/-- A type that comes back from a text with a number after it is separated within. -/
theorem isSeparated_of_orUnknown {type : CType} (spelled : type.isSpelled = true)
    (enough : type.encode.length ≤ depth) (ends : EndsParameter rest)
    (same : (readType depth false (type.encode ++ (encodeNat number ++ rest))).orUnknown = type) :
    type.isSeparated = true :=
  (needsSeparation_of_isSpelled type spelled depth false _ enough (delimits_encodeNat rfl ends)
    (result_of_orUnknown enough same)).1

/-- A type is read up to the number after it if it does not end in one itself. -/
theorem readType_encodeNat {type : CType} (noWidth : type.lastWidth? = none)
    (spelled : type.isSpelled = true) (separated : type.isSeparated = true)
    (enough : type.encode.length ≤ depth) (ends : EndsParameter rest) :
    readType depth false (type.encode ++ (encodeNat number ++ rest)) =
      .found type (encodeNat number ++ rest) := by
  have wellSpelled : type.isWellSpelled = true := by
    rw [CType.isWellSpelled_eq, spelled, separated, Bool.true_and]
  have noDigit : type.encode.getLast?.any Char.isDigit = false := by
    rw [CType.isDigit_getLast_encode, noWidth, Option.isSome_none]
  exact reads_of_isWellSpelled type wellSpelled depth false _ enough (delimits_encodeNat noDigit ends)

/-- A type comes back from a text with a number after it if it is separated and told from the number. -/
theorem orUnknown_numbered_iff {type : CType} (spelled : type.isSpelled = true)
    (enough : type.encode.length ≤ depth) (ends : EndsParameter rest) :
    (readType depth false (type.encode ++ (encodeNat number ++ rest))).orUnknown = type ↔
      type.isSeparated = true ∧ ∀ width ∈ type.lastWidth?, width = 0 ∧ number = 0 := by
  cases isWidth : type.lastWidth? with
  | none =>
    constructor
    · intro same
      exact ⟨isSeparated_of_orUnknown spelled enough ends same, by simp⟩
    · rintro ⟨separated, _⟩
      rw [readType_encodeNat isWidth spelled separated enough ends]
      rfl
  | some width =>
    rw [(readType_lastWidth isWidth spelled enough fun c first => (ends.head first).1).2]
    simp [isSeparated_of_lastWidth isWidth]

/-- After a type that came back, the next parameter follows where an offset is skipped. -/
theorem skipOffset_numbered {type : CType} (spelled : type.isSpelled = true)
    (enough : type.encode.length ≤ depth) (ends : EndsParameter rest)
    (same : (readType depth false (type.encode ++ (encodeNat number ++ rest))).orUnknown = type) :
    skipOffset (readType depth false (type.encode ++ (encodeNat number ++ rest))).rest = rest := by
  cases isWidth : type.lastWidth? with
  | none =>
    have separated := isSeparated_of_orUnknown spelled enough ends same
    rw [readType_encodeNat isWidth spelled separated enough ends]
    exact (isOffset_encodeNat number).skipOffset_append ends
  | some width =>
    rw [(readType_lastWidth isWidth spelled enough fun c first => (ends.head first).1).1]
    exact IsOffset.absent.skipOffset_append ends

/-! ## Parameters before numbers -/

/-- A parameter comes back from a text with a number after it exactly if it is kept, and the others
then come back from the text after the number. -/
theorem readParameters_numbered {parameter : Parameter} {parameters : List Parameter}
    (spelled : parameter.type.isSpelled = true) (enough : parameter.type.encode.length ≤ depth)
    (ends : EndsParameter rest) :
    (readParameters (depth + 1) false (parameter.encode ++ (encodeNat number ++ rest))).result =
        .ok (parameter :: parameters) ↔
      parameter.IsKept number ∧ (readParameters depth false rest).result = .ok parameters := by
  constructor
  · intro read
    have distinct := isDistinct_of_readParameters read
    rw [readParameters_distinct distinct] at read
    obtain ⟨others, following, same⟩ := Reading.map_eq_ok.mp read
    obtain ⟨first, rfl⟩ := List.cons.inj same
    have type_eq := congrArg Parameter.type first
    rw [skipOffset_numbered spelled enough ends type_eq] at following
    obtain ⟨separated, width⟩ := (orUnknown_numbered_iff spelled enough ends).mp type_eq
    exact ⟨⟨separated, distinct, width⟩, following⟩
  · rintro ⟨⟨separated, distinct, width⟩, others⟩
    have type_eq := (orUnknown_numbered_iff spelled enough ends).mpr ⟨separated, width⟩
    rw [readParameters_distinct distinct, skipOffset_numbered spelled enough ends type_eq, type_eq,
      Reading.map_eq_ok]
    exact ⟨parameters, others, by cases parameter; rfl⟩

/-- Parameters with numbers come back exactly if all of them are kept. -/
theorem readParameters_numbered_iff {entries : List (Parameter × Nat)}
    (spelled : CType.areParametersSpelled (entries.map Prod.fst) = true)
    (enough : ((entries.map ParameterSpelling.canonical).flatMap (·.text)).length < depth) :
    (readParameters depth false ((entries.map ParameterSpelling.canonical).flatMap (·.text))).result =
        .ok (entries.map Prod.fst) ↔
      ∀ entry ∈ entries, entry.1.IsKept entry.2 := by
  induction entries generalizing depth with
  | nil =>
    cases depth with
    | zero => contradiction
    | succ depth => exact iff_of_true rfl (List.forall_mem_nil _)
  | cons entry entries ih =>
    cases depth with
    | zero => contradiction
    | succ depth =>
      rw [List.map_cons, List.flatMap_cons, ParameterSpelling.text_canonical, List.append_assoc]
        at enough ⊢
      rw [List.map_cons] at spelled ⊢
      rw [CType.areParametersSpelled_cons] at spelled
      have positive := entry.1.type.length_encode_pos
      have total : entry.1.type.encode.length ≤ depth ∧
          ((entries.map ParameterSpelling.canonical).flatMap (·.text)).length < depth := by
        simp only [Parameter.encode, List.length_append] at enough
        omega
      rw [readParameters_numbered spelled.1 total.1 (ParameterSpelling.endsParameter_flatMap _),
        ih spelled.2 total.2, List.forall_mem_cons]

namespace Signature

/-- A signature that was read, from whatever text, is read again from its encoding exactly if each of
its parameters is kept by the number after it. -/
theorem ofEncoding_encoding_iff_isKept {text : String} {signature : Signature}
    (read : ofEncoding text = .ok signature) :
    ofEncoding signature.encoding = .ok signature ↔
      ∀ entry ∈ signature.numbered, entry.1.IsKept entry.2 := by
  have spelled := (spellsTo _).parameters (parse_eq_ok.mp read).2
  rw [← map_fst_numbered] at spelled
  have present : ∃ c ∈ signature.encode, Text.isBlank c = false := by
    obtain ⟨c, present, notBlank⟩ := signature.result.type.exists_mem_encode_not_isBlank
    exact ⟨c, by simp [encode, present], notBlank⟩
  rw [ofEncoding, encoding, String.toList_ofList, parse_eq_ok, ← map_fst_numbered,
    and_iff_right present, encode_eq_flatMap]
  exact readParameters_numbered_iff spelled (by rw [canonical]; omega)

/-- A signature with a width of zero at the offset zero, and with an unknown member. -/
def degradedSignature : Signature :=
  ⟨.plain .void, [.plain (.bitfield 0), ⟨{ const := true, input := true },
    .aggregate .struct (some "S") [.ofType none .unknown, .ofType none (.scalar .int)]⟩]⟩

theorem ofEncoding_encoding_iff_isKept_degraded :
    ofEncoding "v b0 nr{S=Zi}+4" = .ok degradedSignature ∧
      ofEncoding degradedSignature.encoding = .ok degradedSignature := by
  have read : ofEncoding "v b0 nr{S=Zi}+4" = .ok degradedSignature := by decide +kernel
  exact ⟨read, (ofEncoding_encoding_iff_isKept read).mpr (by decide +kernel)⟩

/-- A signature with a width before its offset. -/
def widthSignature : Signature := function .void [.bitfield 3]

/-- The width and the offset after it are read again as one width. -/
theorem ofEncoding_encoding_widthSignature :
    ofEncoding "vb3" = .ok widthSignature ∧
      ofEncoding widthSignature.encoding = .ok (function .void [.bitfield 30]) ∧
      ofEncoding widthSignature.encoding ≠ .ok widthSignature := by
  decide +kernel

end Signature

end ForeignCall
