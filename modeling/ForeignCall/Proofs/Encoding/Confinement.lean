import ForeignCall.Proofs.Encoding.Degradation

/-! # Blocks among members

Between the brackets of a block, text without quotes and brackets (`IsFlat`) is read as it is on its own:
the closing bracket ends every word, and no type takes it. Only attributes before that bracket miss it.
They look for their type, take the bracket for one of unknown type, and the block goes on behind it.
-/

namespace ForeignCall

open Reading

/-- Quotes and brackets. -/
def isDelimiter (c : Char) : Bool := isCloser c || c ∈ ['"', '<', '\x7b', '(', '[']

/-- A text without quotes and brackets. -/
def IsFlat (text : List Char) : Prop := ∀ c ∈ text, isDelimiter c = false

instance (text : List Char) : Decidable (IsFlat text) := List.decidableBAll _ text

variable {text more start stop : List Char}

/-! ## Words before a bracket -/

theorem takeWhile_append_cons {p : Char → Bool} {c : Char} (stops : p c = false) (text more : List Char) :
    (text ++ c :: more).takeWhile p = text.takeWhile p ∧
      (text ++ c :: more).dropWhile p = text.dropWhile p ++ c :: more := by
  induction text with
  | nil => simp [stops]
  | cons first text ih => cases inside : p first <;> simp [inside, ih]

theorem skipOffset_append (text more : List Char) :
    skipOffset (text ++ '>' :: more) = skipOffset text ++ '>' :: more := by
  have digits (text : List Char) := (takeWhile_append_cons (p := Char.isDigit) (c := '>') rfl text more).2
  match text with
  | [] => cases more <;> rfl
  | [sign] =>
    have notDigit : ¬((sign = '+' ∨ sign = '-') ∧ ('>' : Char).isDigit = true) := by simp
    exact (if_neg notDigit).trans (digits [sign])
  | sign :: digit :: text =>
    simp only [List.cons_append, skipOffset]
    split
    · exact digits text
    · exact digits (sign :: digit :: text)

theorem readAttributes_append (flat : IsFlat text) (set : Attributes) (more : List Char) :
    readAttributes set (text ++ '>' :: more) =
      ((readAttributes set text).1, (readAttributes set text).2 ++ '>' :: more) := by
  induction text generalizing set with
  | nil => rfl
  | cons code text ih =>
    have notArray (rest : List Char) (within : rest.head? = some '[' → '[' ∈ text) :
        ¬(code = '!' ∧ rest.head? = some '[') := fun ⟨_, opens⟩ =>
      absurd (flat '[' (List.mem_cons_of_mem _ (within opens))) (by decide)
    have short := notArray text List.mem_of_mem_head?
    have long := notArray (text ++ '>' :: more) fun opens => by
      cases text with
      | nil => cases opens
      | cons next text => exact List.mem_of_mem_head? opens
    rw [List.cons_append, readAttributes, if_neg long, readAttributes, if_neg short]
    split
    · exact ih (fun c present => flat c (List.mem_cons_of_mem _ present)) _
    · rfl

namespace IsFlat

variable {named : Bool} {code : Char}

theorem tail (flat : IsFlat (code :: text)) : IsFlat text :=
  fun c present => flat c (List.mem_cons_of_mem _ present)

theorem of_suffix (flat : IsFlat text) (within : stop <:+ text) : IsFlat stop :=
  fun c present => flat c (within.subset present)

/-- A type before a bracket is the type before the end of the text. -/
theorem outcome_typeAt (flat : IsFlat text) (named : Bool) (more : List Char) :
    (typeAt named (text ++ '>' :: more)).outcome =
      ((typeAt named text).outcome.1, (typeAt named text).rest ++ '>' :: more) := by
  induction text with
  | nil => rfl
  | cons code text ih =>
    have undelimited := flat code (List.mem_cons_self ..)
    rw [List.cons_append]
    cases opening_cases code with
    | closer closes => simp [isDelimiter, closes] at undelimited
    | single found alone =>
      rw [typeAt, typeAt, List.length_cons, List.length_cons, alone, alone]
      cases found <;> rfl
    | bitfield =>
      rw [typeAt, typeAt, List.length_cons, List.length_cons, readType_bitfield, readType_bitfield,
        outcome_map, outcome_map, outcome_readQuantity, outcome_readQuantity, rest_map, rest_readQuantity]
      obtain ⟨word, after⟩ := takeWhile_append_cons (p := Char.isDigit) (c := '>') rfl text more
      rw [word, after]
    | array => cases undelimited
    | aggregate shape => cases shape <;> cases undelimited
    | wrapper wrapper =>
      rw [typeAt_wrapper, typeAt_wrapper, orUnknown_eq, orUnknown_eq, ih flat.tail,
        rest_of_outcome (ih flat.tail)]
      rfl
    | object =>
      cases objectText_cases named text with
      | signature inner => cases flat.tail.tail '<' (List.mem_cons_self ..)
      | @block rest unopened =>
        have unopened' : (rest ++ '>' :: more).head? ≠ some '<' := by
          cases rest with
          | nil => simp
          | cons next rest => exact unopened
        rw [List.cons_append, typeAt, typeAt, List.length_cons, List.length_cons,
          readType_block unopened, readType_block unopened']
        rfl
      | restricted quotes => cases flat.tail '"' (List.mem_cons_self ..)
      | plain unmarked unquoted =>
        have unmarked' : (text ++ '>' :: more).head? ≠ some '?' := by
          cases text with
          | nil => simp
          | cons next rest => exact unmarked
        have unquoted' : ∀ inner, text ++ '>' :: more = '"' :: inner → quotesRestriction named inner = false := by
          intro inner same
          cases text with
          | nil => cases same
          | cons next rest =>
            obtain ⟨rfl, -⟩ := List.cons.inj same
            cases flat.tail '"' (List.mem_cons_self ..)
        rw [typeAt, typeAt, List.length_cons, List.length_cons,
          readType_plain unmarked unquoted, readType_plain unmarked' unquoted']
        rfl

/-! ## Parameters of a block -/

variable {parameter : Parameter} {parameters : List Parameter}

/-- A parameter before the bracket is the parameter before the end of the text. -/
theorem inBlock (flat : IsFlat start) (round : ParameterRound false start parameter stop)
    (more : List Char) : ParameterRound true (start ++ '>' :: more) parameter (stop ++ '>' :: more) := by
  have unblanked := (takeWhile_append_cons (p := Text.isAsciiBlank) (c := '>') rfl start more).2
  cases round with
  | @stray word left next code attributes first inside read closes =>
    have undelimited := flat.of_suffix (suffix_of_readAttributes first read) code (List.mem_cons_self ..)
    simp [isDelimiter, closes] at undelimited
  | @type word left next code attributes first inside read opens =>
    have word_flat : IsFlat (next :: word) := flat.of_suffix (first ▸ List.dropWhile_suffix _)
    have typed := flat.of_suffix (suffix_of_readAttributes first read)
    have notEnd : ¬(true = true ∧ next = '>') := by
      rintro ⟨-, rfl⟩
      cases word_flat '>' (List.mem_cons_self ..)
    have read' : readAttributes .none (next :: (word ++ '>' :: more)) =
        (attributes, code :: (left ++ '>' :: more)) := by
      rw [← List.cons_append, readAttributes_append word_flat, read]
      rfl
    have same := typed.outcome_typeAt false more
    rw [first] at unblanked
    have round := ParameterRound.type unblanked notEnd read' opens
    rw [← List.cons_append, rest_of_outcome same, skipOffset_append, orUnknown_eq, same,
      ← orUnknown_eq] at round
    exact round

theorem rounds_inBlock (flat : IsFlat start)
    (run : Rounds (ParameterRound false) start parameters stop) (more : List Char) :
    Rounds (ParameterRound true) (start ++ '>' :: more) parameters (stop ++ '>' :: more) := by
  induction run with
  | none => exact .none
  | next first _ ih => exact .next (flat.inBlock first more) (ih (flat.of_suffix first.suffix))

/-- The bracket ends the parameters of a block if the text before it does. -/
theorem parametersAt_inBlock (flat : IsFlat text) (complete : ¬EndsInAttributes text) (more : List Char) :
    ∃ parameters, parametersAt false text = .found parameters [] ∧
      parametersAt true (text ++ '>' :: more) = .found parameters more := by
  obtain ⟨parameters, stop, run, blank⟩ := (blankRounds_or_endsInAttributes text).resolve_right complete
  have first := (takeWhile_append_cons (p := Text.isAsciiBlank) (c := '>') rfl stop more).2
  rw [blank] at first
  refine ⟨parameters, parametersAt_of_blankRounds run blank, ?_⟩
  rw [parametersAt_of_rounds (flat.rounds_inBlock run more), parametersAt_end first]
  simp [Reading.map, Reading.found, Except.map]

/-- Attributes before the bracket take it for a type, and the block goes on. -/
theorem parametersAt_pastBracket (flat : IsFlat text) (ends : EndsInAttributes text) (more : List Char) :
    ∃ parameters, parametersAt true (text ++ '>' :: more) =
      (parametersAt true (skipOffset more)).map (parameters ++ ·) := by
  obtain ⟨parameters, stop, codes, run, first, nonempty, areFlags⟩ := ends
  obtain ⟨code, others, rfl⟩ := List.exists_cons_of_ne_nil nonempty
  have within := suffix_of_parameterRounds run
  have codes_flat : IsFlat (code :: others) :=
    (flat.of_suffix within).of_suffix (first ▸ List.dropWhile_suffix _)
  have unblanked := (takeWhile_append_cons (p := Text.isAsciiBlank) (c := '>') rfl stop more).2
  rw [first] at unblanked
  have notEnd : ¬(true = true ∧ code = '>') := by
    rintro ⟨-, rfl⟩
    cases codes_flat '>' (List.mem_cons_self ..)
  have read : readAttributes .none (code :: (others ++ '>' :: more)) =
      ((readAttributes .none (code :: others)).1, '>' :: more) := by
    rw [← List.cons_append, readAttributes_append codes_flat, readAttributes_eq_nil_iff.mpr areFlags]
    rfl
  refine ⟨parameters ++ [⟨(readAttributes .none (code :: others)).1, .unknown⟩], ?_⟩
  rw [parametersAt_of_rounds (flat.rounds_inBlock run more), parametersAt_stray unblanked notEnd read rfl,
    map_map]
  simp [Function.comp_def]

end IsFlat

/-! ## Blocks as members -/

/-- The type of a block with these parameters; without any, it is unknown. -/
def blockType (parameters : List Parameter) : CType :=
  match Signature.ofParameters? parameters with
  | some signature => .block (some signature)
  | none => .unknown

variable {shape : Shape} {named : Bool} {unclosed : Failure} {parameters : List Parameter}

theorem typeAt_blockType (found : parametersAt true text = .found parameters more) (named : Bool) :
    (typeAt named ('@' :: '?' :: '<' :: text)).orUnknown = blockType parameters ∧
      (typeAt named ('@' :: '?' :: '<' :: text)).rest = more := by
  rw [typeAt_signature, found]
  simp only [Reading.found, Reading.andThen, blockOf, blockType]
  cases Signature.ofParameters? parameters <;> exact ⟨rfl, rfl⟩

/-- A structure with a block of this text, and an `int` behind it. -/
def structWithBlock (body : String) : String := "\x7bS=@?<" ++ body ++ ">i\x7d"

theorem structWithBlock_toList (body : String) :
    (structWithBlock body).toList =
      Shape.opening .struct :: (['S'] ++ '=' :: '@' :: '?' :: '<' :: (body.toList ++ '>' :: ['i', '}'])) := by
  simp [structWithBlock, Shape.opening]

theorem typeAt_structWithBlock (body : String) :
    typeAt false (structWithBlock body).toList =
      (membersAt .struct false ⟨.unterminatedAggregate .struct "S", (structWithBlock body).toList⟩
        ('@' :: '?' :: '<' :: (body.toList ++ '>' :: ['i', '}']))).map (.aggregate .struct (some "S")) := by
  have inside : ∀ c ∈ ['S'], c ≠ '=' ∧ c ≠ Shape.closing .struct := by simp [Shape.closing]
  rw [structWithBlock_toList, typeAt_body inside]
  rfl

/-- A block is confined to its brackets, whatever its parameters are, unless its text ends in attributes:
these take the closing bracket, and the structure around the block is not closed any more. -/
theorem block_confined (body : String) (flat : IsFlat body.toList) :
    (¬EndsInAttributes body.toList → ∃ parameters, parametersAt false body.toList = .found parameters [] ∧
      CType.ofEncoding (structWithBlock body) =
        .ok (.aggregate .struct (some "S")
          [.ofType none (blockType parameters), .ofType none (.scalar .int)])) ∧
    (EndsInAttributes body.toList → CType.ofEncoding (structWithBlock body) =
      .error (.malformed 0 (.unterminatedAggregate .struct "S"))) := by
  have whole := typeAt_structWithBlock body
  constructor
  · intro complete
    obtain ⟨parameters, alone, inBlock⟩ := flat.parametersAt_inBlock complete ['i', '}']
    obtain ⟨type, rest⟩ := typeAt_blockType inBlock false
    rw [membersAt_type (by decide) rfl, type, rest] at whole
    exact ⟨parameters, alone, CType.ofEncoding_eq_ok.mpr whole⟩
  · intro ends
    obtain ⟨parameters, inBlock⟩ := flat.parametersAt_pastBracket ends ['i', '}']
    -- Behind the bracket, `i` and the closing bracket of the structure are parameters as well.
    have unclosed : parametersAt true (skipOffset ['i', '}']) = .failed .unterminatedSignature [] [] := rfl
    rw [membersAt_type (by decide) rfl, typeAt_signature, inBlock, unclosed] at whole
    have failed : typeAt false (structWithBlock body).toList =
        .failed (.unterminatedAggregate .struct "S") (structWithBlock body).toList [] := whole
    rw [CType.ofEncoding, CType.parse, structWithBlock_toList, CType.parsePrefix_cons,
      ← structWithBlock_toList, failed]
    simp [Reading.failed, Failure.toError, Except.bind]

/-- A width that is missing, a character that is no type and attributes before a type do no harm. -/
theorem block_confined_degraded :
    IsFlat "vb né".toList ∧ ¬EndsInAttributes "vb né".toList ∧
      ∃ parameters, parametersAt false "vb né".toList = .found parameters [] ∧
        CType.ofEncoding (structWithBlock "vb né") =
          .ok (.aggregate .struct (some "S")
            [.ofType none (blockType parameters), .ofType none (.scalar .int)]) := by
  have flat : IsFlat "vb né".toList := by decide
  have complete : ¬EndsInAttributes "vb né".toList := fun ends => by
    have failed := ends.parametersAt_eq
    have found : (parametersAt false "vb né".toList).result.isOk = true := by decide +kernel
    rw [failed] at found
    cases found
  exact ⟨flat, complete, (block_confined "vb né" flat).1 complete⟩

/-- A block of nothing but an attribute takes the rest of the structure. -/
theorem closing_bracket_taken :
    IsFlat "r".toList ∧ structWithBlock "r" = "\x7bS=@?<r>i\x7d" ∧
      CType.ofEncoding "\x7bS=@?<r>i\x7d" = .error (.malformed 0 (.unterminatedAggregate .struct "S")) := by
  refine ⟨by decide, rfl, by decide +kernel⟩

end ForeignCall
