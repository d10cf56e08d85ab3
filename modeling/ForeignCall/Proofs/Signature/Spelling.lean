import Mathlib.Algebra.GroupWithZero.Nat
import Mathlib.Data.List.Basic
import ForeignCall.Proofs.Encoding.Reread
import ForeignCall.Signature.Frame

/-! # Spellings of signatures

A text spells a signature parameter by parameter: codes of attributes in any order, the type, an offset
that nobody uses, blanks. Nothing separates parameters, so the reader finds each end by what follows.
If no two neighbours spell a third thing, every spelling of a list of parameters is read as the same
signature, with offsets of its own (`Signature.parse_spellings`). One step reads one spelling up to the
next (`ParameterSpelling.readParameters_cons`).
-/

namespace ForeignCall

/-! ## Offsets and frames -/

namespace Signature

/-- The bytes that parameters take together in a frame. -/
def totalSlotSize (parameters : List Parameter) : Nat := (parameters.map (·.slotSize)).sum

theorem foldl_nextOffset (parameters : List Parameter) (offset : Nat) :
    parameters.foldl nextOffset (min offset maxAddress) =
      min (offset + totalSlotSize parameters) maxAddress := by
  induction parameters generalizing offset with
  | nil => rfl
  | cons parameter parameters ih =>
    have step : nextOffset (min offset maxAddress) parameter =
        min (offset + parameter.slotSize) maxAddress := by
      simp only [nextOffset]
      omega
    rw [List.foldl_cons, step, ih, Nat.add_assoc]
    rfl

theorem length_offsetsFrom (offset : Nat) (parameters : List Parameter) :
    (offsetsFrom offset parameters).length = parameters.length := by
  induction parameters generalizing offset with
  | nil => rfl
  | cons parameter parameters ih => simp [offsetsFrom, ih]

theorem getElem?_offsetsFrom {parameters : List Parameter} {index : Nat} (offset : Nat)
    (inside : index < parameters.length) :
    (offsetsFrom offset parameters)[index]? =
      some ((parameters.take index).foldl nextOffset offset) := by
  induction parameters generalizing offset index with
  | nil => contradiction
  | cons parameter parameters ih =>
    cases index with
    | zero => rfl
    | succ index => exact ih (nextOffset offset parameter) (Nat.lt_of_succ_lt_succ inside)

variable (signature : Signature)

/-- The frame covers all arguments, as far as addresses go. -/
theorem frameSize_eq : signature.frameSize = min (totalSlotSize signature.arguments) maxAddress := by
  have total := foldl_nextOffset signature.arguments 0
  rwa [Nat.zero_min, Nat.zero_add] at total

/-- An argument lies after those before it. -/
theorem getElem?_offsets {index : Nat} (inside : index < signature.arguments.length) :
    signature.offsets[index]? =
      some (min (totalSlotSize (signature.arguments.take index)) maxAddress) := by
  have total := foldl_nextOffset (signature.arguments.take index) 0
  rw [Nat.zero_min, Nat.zero_add] at total
  rw [offsets, getElem?_offsetsFrom 0 inside, total]

end Signature

/-! ## Spellings -/

/-- The text of an offset: nothing, or digits that may have a sign. -/
inductive IsOffset : List Char → Prop where
  | absent : IsOffset []
  | unsigned {digits : List Char} (nonempty : digits ≠ []) (areDigits : ∀ c ∈ digits, c.isDigit = true) :
    IsOffset digits
  | signed {sign : Char} {digits : List Char} (isSign : sign = '+' ∨ sign = '-') (nonempty : digits ≠ [])
    (areDigits : ∀ c ∈ digits, c.isDigit = true) : IsOffset (sign :: digits)

/-- A parameter as a text spells it. -/
structure ParameterSpelling extends Parameter where
  /-- The codes of the attributes, in any order and as often as may be. -/
  codes : List Attribute
  mem_codes_iff : ∀ flag, flag ∈ codes ↔ attributes.contains flag = true
  offset : List Char
  isOffset : IsOffset offset
  blanks : List Char
  areBlank : ∀ c ∈ blanks, Text.isAsciiBlank c = true

/-- The width in which the encoding of a type ends. -/
def CType.lastWidth? : CType → Option Nat
  | bitfield width => some width
  | wrapped _ inner => inner.lastWidth?
  | _ => none

namespace ParameterSpelling

def text (spelling : ParameterSpelling) : List Char :=
  spelling.codes.map Attribute.code ++ (spelling.type.encode ++ (spelling.offset ++ spelling.blanks))

/-- Whether the type is told from the codes before it and from the offset after it. -/
@[mk_iff]
structure IsDistinct (spelling : ParameterSpelling) : Prop where
  const : spelling.type.encode.head? ≠ some 'r'
  vector : spelling.type.encode.head? = some '!' → spelling.type.encode.tail.head? = some '['
  array : spelling.codes.getLast? = some .legacy → spelling.type.encode.head? ≠ some '['
  width : spelling.type.lastWidth?.isSome = true → spelling.offset.head?.any Char.isDigit = false

instance (spelling : ParameterSpelling) : Decidable spelling.IsDistinct :=
  decidable_of_iff' _ spelling.isDistinct_iff

end ParameterSpelling

/-! ## Parts of a spelling -/

namespace Attributes

theorem contains_foldl_insert (codes : List Attribute) (set : Attributes) (flag : Attribute) :
    (codes.foldl insert set).contains flag = (decide (flag ∈ codes) || set.contains flag) := by
  induction codes generalizing set with
  | nil => simp
  | cons code codes ih =>
    rw [List.foldl_cons, ih, contains_insert]
    by_cases same : flag = code <;> simp [same]

/-- The codes of a set build the set, in whatever order they stand. -/
theorem foldl_insert_eq {codes : List Attribute} {set : Attributes}
    (same : ∀ flag, flag ∈ codes ↔ set.contains flag = true) : codes.foldl insert none = set := by
  apply ext_contains
  intro flag
  rw [contains_foldl_insert, contains_none, Bool.or_false, Bool.eq_iff_iff, decide_eq_true_eq]
  exact same flag

end Attributes

/-- Text that can stand behind a parameter: nothing, or a blank, or the next parameter. -/
def EndsParameter (text : List Char) : Prop :=
  ∀ c, text.head? = some c → Text.isAsciiBlank c = true ∨ opensItem c = true

variable {word offset rest : List Char}

/-- What does not follow a parameter. -/
theorem EndsParameter.head (ends : EndsParameter rest) {c : Char} (first : rest.head? = some c) :
    c.isDigit = false ∧ c ≠ '<' ∧ c ≠ '"' ∧ c ≠ '+' ∧ c ≠ '-' := by
  rcases ends c first with blank | opens
  · simp only [Text.isAsciiBlank, Bool.or_eq_true, decide_eq_true_eq] at blank
    rcases blank with (((rfl | rfl) | rfl) | rfl) | rfl <;> decide
  · obtain ⟨digit, _, _, quote, angle, plus, minus⟩ := opensItem_iff.mp opens
    exact ⟨digit, angle, quote, plus, minus⟩

theorem isOffset_encodeNat (number : Nat) : IsOffset (encodeNat number) :=
  .unsigned (encodeNat_ne_nil number) fun _ => isDigit_of_mem_encodeNat

namespace IsOffset

/-- An offset begins with a digit or with a sign. -/
theorem head (isOffset : IsOffset offset) {c : Char} (first : offset.head? = some c) :
    c.isDigit = true ∨ c = '+' ∨ c = '-' := by
  cases isOffset with
  | absent => contradiction
  | unsigned nonempty areDigits => exact .inl (areDigits c (List.mem_of_mem_head? first))
  | signed isSign nonempty areDigits =>
    cases first
    exact .inr isSign

theorem skipOffset_append (isOffset : IsOffset offset) (ends : EndsParameter rest) :
    skipOffset (offset ++ rest) = rest := by
  have stops : ∀ c, rest.head? = some c → c.isDigit = false := fun c first => (ends.head first).1
  cases isOffset with
  | absent =>
    apply skipOffset_eq_self
    intro c first
    obtain ⟨digit, _, _, plus, minus⟩ := ends.head first
    exact ⟨digit, plus, minus⟩
  | unsigned nonempty areDigits =>
    obtain ⟨digit, digits, rfl⟩ := List.exists_cons_of_ne_nil nonempty
    have isDigit := areDigits digit (List.mem_cons_self ..)
    rw [skipOffset_eq_dropWhile]
    · exact (takeWhile_word areDigits stops).2
    · intro c first
      cases first
      constructor <;> (rintro rfl; contradiction)
  | @signed sign digits isSign nonempty areDigits =>
    obtain ⟨digit, digits, rfl⟩ := List.exists_cons_of_ne_nil nonempty
    have isDigit := areDigits digit (List.mem_cons_self ..)
    have inside : ∀ c ∈ digits, c.isDigit = true := fun c present =>
      areDigits c (List.mem_cons_of_mem _ present)
    simp only [List.cons_append, skipOffset, isSign, isDigit, and_self, if_true]
    exact (takeWhile_word inside stops).2

/-- An offset, or what stands in its place, delimits the type before it. -/
theorem delimits (isOffset : IsOffset offset) (ends : EndsParameter rest)
    (digit : word.getLast?.any Char.isDigit = true → ∀ c, offset.head? = some c → c.isDigit = false)
    (block : word.getLast? = some '@' → (offset ++ rest).head? ≠ some '?') :
    Delimits false word (offset ++ rest) := by
  have heads : ∀ c, (offset ++ rest).head? = some c →
      (offset.head? = some c ∧ (c.isDigit = true ∨ c = '+' ∨ c = '-')) ∨
        (c.isDigit = false ∧ c ≠ '<' ∧ c ≠ '"' ∧ c ≠ '+' ∧ c ≠ '-') := by
    intro c first
    cases offset with
    | nil => exact .inr (ends.head first)
    | cons code others =>
      cases first
      exact .inl ⟨rfl, isOffset.head rfl⟩
  constructor
  · intro isWidth c first
    rcases heads c first with ⟨isFirst, _⟩ | ⟨notDigit, _⟩
    · exact digit isWidth c isFirst
    · exact notDigit
  · intro opens
    rcases heads '<' opens with ⟨_, isFirst⟩ | ⟨_, different, _⟩
    · exact absurd isFirst (by decide)
    · exact different rfl
  · exact block
  · intro after same
    rcases heads '"' (by rw [same]; rfl) with ⟨_, isFirst⟩ | ⟨_, _, different, _⟩
    · exact absurd isFirst (by decide)
    · exact absurd rfl different
  · simp

end IsOffset

namespace CType

/-- A type's encoding ends in a digit if it ends in a width. -/
theorem isDigit_getLast_encode : (type : CType) →
    type.encode.getLast?.any Char.isDigit = type.lastWidth?.isSome
  | unknown | void | classRef | block none => rfl
  | scalar kind => by cases kind <;> rfl
  | object className protocols => by
    rw [encode, encodeRestriction]
    split
    · rfl
    · simp [encodeQuoted, List.getLast?_cons, lastWidth?]
  | block (some ⟨⟨attributes, type⟩, arguments⟩) => by
    simp [encode, List.getLast?_cons, List.getLast?_append, lastWidth?]
  | wrapped wrapper inner => by
    have nonempty := List.ne_nil_of_length_pos inner.length_encode_pos
    rw [encode, List.getLast?_cons_of_ne_nil nonempty, lastWidth?, isDigit_getLast_encode inner]
  | bitfield width => isDigit_getLast_encodeNat 'b' width
  | array count element => by simp [encode, List.getLast?_cons, lastWidth?]
  | forward shape name => by
    cases shape <;> simp [encode, List.getLast?_cons, Shape.closing, lastWidth?]
  | aggregate shape name members => by
    cases shape <;>
      simp [encode, List.getLast?_cons, List.getLast?_append, Shape.closing, lastWidth?]

/-- A type that is read back from its encoding is well spelled. -/
theorem isWellSpelled_of_ofEncoding_encoding {type : CType}
    (again : ofEncoding type.encoding = .ok type) : type.isWellSpelled = true := by
  have spelled := isSpelled_of_ofEncoding again
  rw [ofEncoding_eq_ok, encoding, String.toList_ofList] at again
  have result : (readType (type.encode.length + 1) false (type.encode ++ [])).result = .ok type := by
    rw [List.append_nil, again]
    rfl
  have separated :=
    (needsSeparation_of_isSpelled type spelled _ _ _ (Nat.le_succ _) (delimits_nil _) result).1
  rw [isWellSpelled_eq, spelled, separated, Bool.true_and]

/-- An encoding begins with a character that is not blank. -/
theorem exists_mem_encode_not_isBlank (type : CType) : ∃ c ∈ type.encode, Text.isBlank c = false := by
  cases type with
  | scalar kind => exact ⟨_, List.mem_cons_self .., by cases kind <;> decide⟩
  | wrapped wrapper inner => exact ⟨_, List.mem_cons_self .., by cases wrapper <;> decide⟩
  | forward shape name => exact ⟨_, List.mem_cons_self .., by cases shape <;> decide⟩
  | aggregate shape name members => exact ⟨_, List.mem_cons_self .., by cases shape <;> decide⟩
  | block signature =>
    cases signature with
    | none => exact ⟨'@', List.mem_cons_self .., by decide⟩
    | some signature =>
      obtain ⟨⟨attributes, type⟩, arguments⟩ := signature
      exact ⟨'@', List.mem_cons_self .., by decide⟩
  | _ => exact ⟨_, List.mem_cons_self .., by decide⟩

end CType

/-! ## Reading a spelling -/

theorem endsParameter_blanks {blanks : List Char} (areBlank : ∀ c ∈ blanks, Text.isAsciiBlank c = true)
    (ends : EndsParameter rest) : EndsParameter (blanks ++ rest) := by
  cases blanks with
  | nil => exact ends
  | cons blank blanks =>
    intro c first
    cases first
    exact .inl (areBlank blank (List.mem_cons_self ..))

/-- Blanks before a parameter leave no trace. -/
theorem readParameters_blanks {blanks : List Char} (depth : Nat) (inBlock : Bool)
    (areBlank : ∀ c ∈ blanks, Text.isAsciiBlank c = true) (text : List Char) :
    readParameters depth inBlock (blanks ++ text) = readParameters depth inBlock text := by
  rw [readParameters.eq_def, readParameters.eq_def depth inBlock text,
    List.dropWhile_append_of_pos areBlank]

namespace ParameterSpelling

variable {spelling : ParameterSpelling} {depth : Nat}

theorem text_eq_cons (spelling : ParameterSpelling) :
    ∃ code others, spelling.text = code :: others ∧ opensItem code = true :=
  exists_cons_of_codes spelling.codes spelling.type (spelling.offset ++ spelling.blanks)

/-- A `?` stands behind the `@` of a type only if one follows the whole spelling. -/
theorem head_ne_mark (spelling : ParameterSpelling)
    (objects : spelling.text.getLast? = some '@' → rest.head? ≠ some '?')
    (last : spelling.type.encode.getLast? = some '@') :
    (spelling.offset ++ (spelling.blanks ++ rest)).head? ≠ some '?' := by
  cases offset_eq : spelling.offset with
  | cons code digits =>
    intro mark
    have first := spelling.isOffset.head (c := '?') (by rw [offset_eq]; exact mark)
    exact absurd first (by decide)
  | nil =>
    cases blanks_eq : spelling.blanks with
    | cons blank blanks =>
      intro mark
      have isBlank := spelling.areBlank '?' (by rw [blanks_eq]; exact List.mem_of_mem_head? mark)
      contradiction
    | nil =>
      apply objects
      rw [text, offset_eq, blanks_eq, List.append_nil, List.append_nil, List.getLast?_append, last]
      rfl

/-- A spelling is read as its parameter, up to the next one. -/
theorem readParameters_cons
    (again : CType.ofEncoding spelling.type.encoding = .ok spelling.type)
    (distinct : spelling.IsDistinct) (enough : spelling.text.length ≤ depth)
    (ends : EndsParameter rest) (objects : spelling.text.getLast? = some '@' → rest.head? ≠ some '?') :
    readParameters (depth + 1) false (spelling.text ++ rest) =
      (readParameters depth false rest).map (spelling.toParameter :: ·) := by
  have ends' := endsParameter_blanks spelling.areBlank ends
  have lacks := CType.lacksAttribute_encode distinct.const distinct.vector
    (spelling.offset ++ (spelling.blanks ++ rest))
  have delimits : Delimits false spelling.type.encode
      (spelling.offset ++ (spelling.blanks ++ rest)) := by
    apply spelling.isOffset.delimits ends'
    · intro isWidth c first
      rw [CType.isDigit_getLast_encode] at isWidth
      simpa [first] using distinct.width isWidth
    · exact spelling.head_ne_mark objects
  have enough' : spelling.type.encode.length ≤ depth := by
    simp only [text, List.length_append] at enough
    omega
  have read := reads_of_isWellSpelled spelling.type (CType.isWellSpelled_of_ofEncoding_encoding again)
    depth false _ enough' delimits
  rw [text, List.append_assoc, List.append_assoc, List.append_assoc,
    readParameters_codes spelling.codes lacks distinct.array, read]
  dsimp only [Reading.found, Reading.orUnknown]
  rw [spelling.isOffset.skipOffset_append ends', readParameters_blanks depth false spelling.areBlank,
    Attributes.foldl_insert_eq spelling.mem_codes_iff]
  -- Parameters occur inside types, so one is not its two fields by definition.
  cases spelling with
  | mk parameter =>
    cases parameter
    rfl

theorem endsParameter_flatMap (spellings : List ParameterSpelling) :
    EndsParameter (spellings.flatMap (·.text)) := by
  cases spellings with
  | nil =>
    intro c first
    contradiction
  | cons spelling spellings =>
    obtain ⟨code, others, text_eq, opens⟩ := spelling.text_eq_cons
    intro c first
    rw [List.flatMap_cons, text_eq] at first
    cases first
    exact .inr opens

/-- The text of spellings begins as the first of them does. -/
theorem head?_flatMap (spellings : List ParameterSpelling) :
    (spellings.flatMap (·.text)).head? = (spellings.map (·.text)).head?.bind List.head? := by
  cases spellings with
  | nil => rfl
  | cons spelling spellings =>
    obtain ⟨code, others, text_eq, _⟩ := spelling.text_eq_cons
    simp [text_eq]

/-- Spellings are read as their parameters, one after the other. -/
theorem readParameters_flatMap {spellings : List ParameterSpelling}
    (distinct : ∀ spelling ∈ spellings,
      CType.ofEncoding spelling.type.encoding = .ok spelling.type ∧ spelling.IsDistinct)
    (objects : keepsObjects (spellings.map (·.text)) = true)
    (enough : (spellings.flatMap (·.text)).length < depth) :
    readParameters depth false (spellings.flatMap (·.text)) =
      .found (spellings.map (·.toParameter)) [] := by
  induction spellings generalizing depth with
  | nil =>
    cases depth with
    | zero => contradiction
    | succ depth => rfl
  | cons spelling spellings ih =>
    cases depth with
    | zero => contradiction
    | succ depth =>
      obtain ⟨again, first⟩ := distinct spelling (List.mem_cons_self ..)
      obtain ⟨code, others, text_eq, _⟩ := spelling.text_eq_cons
      have total : spelling.text.length + (spellings.flatMap (·.text)).length < depth + 1 := by
        simpa using enough
      have positive : 0 < spelling.text.length := by simp [text_eq]
      rw [List.map_cons, keepsObjects_cons, ← head?_flatMap] at objects
      rw [List.flatMap_cons, readParameters_cons again first (by omega) (endsParameter_flatMap _) objects.1,
        ih (fun other present => distinct other (List.mem_cons_of_mem _ present)) objects.2 (by omega)]
      rfl

/-- A parameter as an encoding writes it, with a number after it. -/
def canonical (entry : Parameter × Nat) : ParameterSpelling where
  toParameter := entry.1
  codes := entry.1.attributes.toList
  mem_codes_iff _ := Attributes.mem_toList
  offset := encodeNat entry.2
  isOffset := isOffset_encodeNat entry.2
  blanks := []
  areBlank := by simp

theorem text_canonical (entry : Parameter × Nat) :
    (canonical entry).text = entry.1.encode ++ encodeNat entry.2 := by
  simp [text, canonical, Parameter.encode, Attributes.encode]

theorem getLast?_text_canonical (entry : Parameter × Nat) :
    (canonical entry).text.getLast? ≠ some '@' := by
  intro last
  have nonempty := encodeNat_ne_nil entry.2
  rw [text_canonical, List.getLast?_append, List.getLast?_eq_some_getLast nonempty, Option.some_or,
    Option.some.injEq] at last
  have isDigit := isDigit_of_mem_encodeNat (List.getLast_mem nonempty)
  rw [last] at isDigit
  contradiction

end ParameterSpelling

/-! ## Signatures -/

theorem keepsObjects_of_getLast? {texts : List (List Char)}
    (last : ∀ text ∈ texts, text.getLast? ≠ some '@') : keepsObjects texts = true := by
  induction texts with
  | nil => rfl
  | cons text texts ih =>
    rw [keepsObjects_cons]
    exact ⟨fun ends => absurd ends (last text (List.mem_cons_self ..)),
      ih fun other present => last other (List.mem_cons_of_mem _ present)⟩

namespace Signature

/-- The parameters of a signature, each with the number that an encoding writes after it. -/
def numbered (signature : Signature) : List (Parameter × Nat) :=
  (signature.result, signature.frameSize) :: signature.arguments.zip signature.offsets

def canonical (signature : Signature) : List ParameterSpelling :=
  signature.numbered.map .canonical

theorem encode_eq_flatMap (signature : Signature) :
    signature.encode = signature.canonical.flatMap (·.text) := by
  simp [encode, canonical, numbered, List.flatMap_map, ParameterSpelling.text_canonical,
    Parameter.encode]

theorem map_fst_numbered (signature : Signature) :
    signature.numbered.map Prod.fst = signature.result :: signature.arguments := by
  rw [numbered, List.map_cons, offsets, List.map_fst_zip (Nat.le_of_eq (length_offsetsFrom 0 _).symm)]

/-- A text is a signature if it is not blank and its parameters are read. -/
theorem parse_eq_ok {text : List Char} {signature : Signature} :
    parse text = .ok signature ↔ (∃ c ∈ text, Text.isBlank c = false) ∧
      (readParameters (text.length + 2) false text).result =
        .ok (signature.result :: signature.arguments) := by
  have blank : (Text.trim text).isEmpty = true ↔ ¬∃ c ∈ text, Text.isBlank c = false := by
    simp [Text.trim_eq_nil_iff]
  rw [parse]
  split
  next isBlank => simp [blank.mp isBlank]
  next notBlank =>
    rw [blank, Classical.not_not] at notBlank
    cases (readParameters (text.length + 2) false text).result with
    | error failure => simp
    | ok parameters =>
      obtain ⟨result, arguments⟩ := signature
      cases parameters with
      | nil => simp [ofParameters?]
      | cons first others => simpa [ofParameters?] using fun _ _ => notBlank

variable {spellings : List ParameterSpelling}

/-- Every spelling of a list of parameters is read as the signature of these parameters. -/
theorem exists_parse {leading : List Char} (nonempty : spellings ≠ [])
    (areBlank : ∀ c ∈ leading, Text.isAsciiBlank c = true)
    (distinct : ∀ spelling ∈ spellings,
      CType.ofEncoding spelling.type.encoding = .ok spelling.type ∧ spelling.IsDistinct)
    (objects : keepsObjects (spellings.map (·.text)) = true) :
    ∃ signature, parse (leading ++ spellings.flatMap (·.text)) = .ok signature ∧
      signature.result :: signature.arguments = spellings.map (·.toParameter) := by
  obtain ⟨first, others, rfl⟩ := List.exists_cons_of_ne_nil nonempty
  refine ⟨⟨first.toParameter, others.map (·.toParameter)⟩, parse_eq_ok.mpr ⟨?_, ?_⟩, rfl⟩
  · obtain ⟨c, present, notBlank⟩ := first.type.exists_mem_encode_not_isBlank
    exact ⟨c, by simp [ParameterSpelling.text, present], notBlank⟩
  · rw [readParameters_blanks _ _ areBlank,
      ParameterSpelling.readParameters_flatMap distinct objects (by simp; omega)]
    rfl

/-- A signature is read back from its encoding if its parameters are told apart there. -/
theorem ofEncoding_encoding_of_isDistinct {signature : Signature}
    (distinct : ∀ spelling ∈ signature.canonical,
      CType.ofEncoding spelling.type.encoding = .ok spelling.type ∧ spelling.IsDistinct) :
    ofEncoding signature.encoding = .ok signature := by
  have objects : keepsObjects (signature.canonical.map (·.text)) = true := by
    apply keepsObjects_of_getLast?
    intro text present
    simp only [canonical, List.map_map, List.mem_map] at present
    obtain ⟨entry, _, rfl⟩ := present
    exact ParameterSpelling.getLast?_text_canonical entry
  have nonempty : signature.canonical ≠ [] := List.cons_ne_nil _ _
  obtain ⟨⟨result, arguments⟩, read, same⟩ :=
    exists_parse nonempty (List.forall_mem_nil _) distinct objects
  have parameters : signature.canonical.map (·.toParameter) =
      signature.result :: signature.arguments := by
    rw [canonical, List.map_map, ← map_fst_numbered]
    rfl
  rw [parameters, List.cons.injEq] at same
  obtain ⟨rfl, rfl⟩ := same
  rw [ofEncoding, encoding, String.toList_ofList, encode_eq_flatMap]
  cases signature
  exact read

/-- Spellings with repeated codes, with all kinds of offsets and with blanks. -/
def looseSpellings : List ParameterSpelling :=
  [{ attributes := { byCopy := true, oneway := true }, type := .void
     codes := [.oneway, .byCopy, .oneway], mem_codes_iff := by rintro ⟨⟩ <;> decide
     offset := ['1', '6'], isOffset := .unsigned (by simp) (by simp)
     blanks := [' '], areBlank := by simp [Text.isAsciiBlank] },
   { attributes := .none, type := .anyObject
     codes := [], mem_codes_iff := by rintro ⟨⟩ <;> decide
     offset := ['+', '0'], isOffset := .signed (.inl rfl) (by simp) (by simp)
     blanks := [], areBlank := by simp [Text.isAsciiBlank] },
   { attributes := { const := true }, type := .bitfield 3
     codes := [.const], mem_codes_iff := by rintro ⟨⟩ <;> decide
     offset := ['-', '4'], isOffset := .signed (.inr rfl) (by simp) (by simp)
     blanks := ['\n', ' '], areBlank := by simp [Text.isAsciiBlank] },
   { attributes := { legacy := true }, type := .wrapped .pointer (.scalar .int)
     codes := [.legacy], mem_codes_iff := by rintro ⟨⟩ <;> decide
     offset := [], isOffset := .absent
     blanks := [], areBlank := by simp [Text.isAsciiBlank] }]

end Signature

end ForeignCall
