import ForeignCall.Encoding.Parser

/-! # Single steps of the readers

What a reader does is decided by the first character of its text, for an object by the characters
after `@`, and for a parameter by what follows its blanks and attributes. Each decision is a
predicate with one constructor for each way to go on (`Opening`, `ObjectText`, `MemberStart`,
`ParameterText`), and each way has an equation for the reader. Statements about all texts go through
these cases and do not open the readers themselves.
-/

namespace ForeignCall

theorem Shape.opening_of_ofOpening? {code : Char} {shape : Shape}
    (read : Shape.ofOpening? code = some shape) : shape.opening = code := by
  unfold Shape.ofOpening? at read
  split at read <;> simp_all [Shape.opening] <;> subst read <;> rfl

variable {depth : Nat} {named : Bool} {code : Char} {text rest : List Char}

/-! ## Types -/

/-- What the first character of a text is to the reader of types. -/
inductive Opening : Char → Prop where
  | closer {code : Char} (closes : isCloser code = true) : Opening code
  /-- A character that is a type by itself, or none: the text after it is not looked at. -/
  | single {code : Char} (found : Except Reason CType)
    (alone : ∀ depth named rest, readType (depth + 1) named (code :: rest) =
      ⟨found.mapError (⟨·, code :: rest⟩), rest⟩) : Opening code
  | object : Opening '@'
  | bitfield : Opening 'b'
  | array : Opening '['
  | aggregate (shape : Shape) : Opening shape.opening
  | wrapper (wrapper : Wrapper) : Opening wrapper.code

theorem opening_cases (code : Char) : Opening code := by
  by_cases closes : isCloser code = true
  · exact .closer closes
  by_cases isObject : code = '@'
  · exact isObject ▸ .object
  by_cases isBitfield : code = 'b'
  · exact isBitfield ▸ .bitfield
  by_cases isArray : code = '['
  · exact isArray ▸ .array
  by_cases isVoid : code = 'v'
  · exact isVoid ▸ .single (.ok .void) fun _ _ _ => rfl
  by_cases isUnknown : code = '?'
  · exact isUnknown ▸ .single (.ok .unknown) fun _ _ _ => rfl
  by_cases isClass : code = '#'
  · exact isClass ▸ .single (.ok .classRef) fun _ _ _ => rfl
  cases opens : Shape.ofOpening? code with
  | some shape => exact Shape.opening_of_ofOpening? opens ▸ .aggregate shape
  | none =>
    cases wraps : Wrapper.ofCode? code with
    | some wrapper => exact Wrapper.code_of_ofCode? wraps ▸ .wrapper wrapper
    | none =>
      cases names : Scalar.ofCode? code with
      | some kind =>
        refine .single (.ok (.scalar kind)) fun depth named rest => ?_
        simp only [readType, closes, opens, wraps, names]
        rfl
      | none =>
        refine .single (.error (.unrecognized code)) fun depth named rest => ?_
        simp only [readType, closes, opens, wraps, names]
        rfl

theorem readType_closer (closes : isCloser code = true) :
    readType (depth + 1) named (code :: text) =
      .failed (.unexpected code) (code :: text) (code :: text) := by
  simp [readType, closes]

/-- A wrapper's code is read with the type after it, or with the unknown type if there is none. -/
theorem readType_wrapper (depth : Nat) (named : Bool) (wrapper : Wrapper) (text : List Char) :
    readType (depth + 1) named (wrapper.code :: text) =
      .found (.wrapped wrapper (readType depth named text).orUnknown)
        (readType depth named text).rest := by
  cases wrapper <;> simp [readType, isCloser, Wrapper.code, Shape.ofOpening?, Wrapper.ofCode?]

theorem readType_bitfield (depth : Nat) (named : Bool) (text : List Char) :
    readType (depth + 1) named ('b' :: text) =
      (readQuantity .bitfieldWidth ('b' :: text) text).map .bitfield := by
  simp [readType, isCloser]

/-- The rest of an array, whose length and element have been read. -/
def closeArray (count : Nat) (element : Reading CType) : Reading CType :=
  match element.rest with
  | ']' :: rest => .found (.array count element.orUnknown) rest
  | rest => .failed .unclosedArray rest rest

theorem readType_array (depth : Nat) (named : Bool) (text : List Char) :
    readType (depth + 1) named ('[' :: text) =
      (readQuantity .arrayLength ('[' :: text) text).andThen fun count rest =>
        closeArray count (readType depth false rest) := by
  simp only [readType, isCloser, closeArray]
  rfl

/-- The rest of an aggregate, whose name has been read. -/
def readBody (depth : Nat) (shape : Shape) (start : List Char) (name : String) (isComplete : Bool)
    (text : List Char) : Reading CType :=
  if isComplete then
    (readMembers depth shape (text.head? = some '"') ⟨.unterminatedAggregate shape name, start⟩ text).map
      (.aggregate shape (CType.normalizeName (some name)))
  else .found (.forward shape (CType.normalizeName (some name))) text

theorem readType_aggregate (depth : Nat) (named : Bool) (shape : Shape) (text : List Char) :
    readType (depth + 1) named (shape.opening :: text) =
      (readAggregateName shape (shape.opening :: text) text).andThen fun name rest =>
        readBody depth shape (shape.opening :: text) name.1 name.2 rest := by
  cases shape <;> simp [readType, isCloser, Shape.opening, Shape.ofOpening?, readBody]

/-! ## Objects -/

/-- What the text after `@` is to the reader of types. -/
inductive ObjectText (named : Bool) : List Char → Prop where
  | signature (inner : List Char) : ObjectText named ('?' :: '<' :: inner)
  | block {rest : List Char} (unopened : rest.head? ≠ some '<') : ObjectText named ('?' :: rest)
  | restricted {inner : List Char} (quotes : quotesRestriction named inner = true) :
    ObjectText named ('"' :: inner)
  | plain {rest : List Char} (unmarked : rest.head? ≠ some '?')
    (unquoted : ∀ inner, rest = '"' :: inner → quotesRestriction named inner = false) :
    ObjectText named rest

theorem objectText_cases (named : Bool) (text : List Char) : ObjectText named text := by
  cases text with
  | nil => exact .plain (by simp) (by simp)
  | cons next rest =>
    by_cases isMark : next = '?'
    · subst isMark
      by_cases opens : rest.head? = some '<'
      · obtain ⟨inner, rfl⟩ := List.head?_eq_some_iff.mp opens
        exact .signature inner
      · exact .block opens
    by_cases isQuote : next = '"'
    · subst isQuote
      cases quotes : quotesRestriction named rest with
      | true => exact .restricted quotes
      | false => exact .plain (by simp) (by simpa using quotes)
    · exact .plain (by simpa using isMark) (by simp [isQuote])

/-- The signature of a block, whose parameters have been read from a text. -/
def blockOf (inner : List Char) (parameters : List Parameter) (rest : List Char) : Reading CType :=
  match Signature.ofParameters? parameters with
  | some signature => .found (.block (some signature)) rest
  | none => .failed .emptyBlockSignature inner rest

theorem readType_signature (depth : Nat) (named : Bool) (inner : List Char) :
    readType (depth + 1) named ('@' :: '?' :: '<' :: inner) =
      (readParameters depth true inner).andThen (blockOf inner) := by
  simp only [readType, isCloser]
  rfl

theorem readType_block (unopened : rest.head? ≠ some '<') :
    readType (depth + 1) named ('@' :: '?' :: rest) = .found (.block none) rest := by
  cases rest with
  | nil => rfl
  | cons next rest =>
    have different : next ≠ '<' := by simpa using unopened
    simp [readType, isCloser, different]

theorem readType_restricted (quotes : quotesRestriction named text = true) :
    readType (depth + 1) named ('@' :: '"' :: text) =
      (readQuoted ('"' :: text) text).map objectOfRestriction := by
  simp [readType, isCloser, quotes]

theorem readType_plain (unmarked : rest.head? ≠ some '?')
    (unquoted : ∀ inner, rest = '"' :: inner → quotesRestriction named inner = false) :
    readType (depth + 1) named ('@' :: rest) = .found .anyObject rest := by
  cases rest with
  | nil => rfl
  | cons next rest =>
    have notMark : next ≠ '?' := by simpa using unmarked
    by_cases quote : next = '"'
    · subst quote
      simp [readType, isCloser, unquoted rest rfl]
    · simp [readType, isCloser, quote, notMark]

/-! ## Members -/

variable {shape : Shape} {unclosed : Failure}

/-- What the first character of a text is to the reader of members. -/
inductive MemberStart (shape : Shape) : Char → Prop where
  | closing : MemberStart shape shape.closing
  | quote : MemberStart shape '"'
  | stray {next : Char} (other : next ≠ shape.closing) (closes : isCloser next = true) :
    MemberStart shape next
  | type {next : Char} (unquoted : next ≠ '"') (opens : isCloser next = false) :
    MemberStart shape next

theorem memberStart_cases (shape : Shape) (next : Char) : MemberStart shape next := by
  by_cases isClosing : next = shape.closing
  · exact isClosing ▸ .closing
  by_cases isQuote : next = '"'
  · exact isQuote ▸ .quote
  cases closes : isCloser next with
  | true => exact .stray isClosing closes
  | false => exact .type isQuote closes

theorem Shape.isCloser_closing (shape : Shape) : isCloser shape.closing = true := by
  cases shape <;> rfl

theorem readMembers_closing :
    readMembers (depth + 1) shape named unclosed (shape.closing :: rest) = .found [] rest := by
  simp [readMembers]

theorem readMembers_quote :
    readMembers (depth + 1) shape named unclosed ('"' :: text) =
      (readQuoted ('"' :: text) text).andThen fun name rest =>
        (readMembers depth shape named unclosed (readType depth named rest).rest).map
          (Member.ofType (memberName name) (readType depth named rest).orUnknown :: ·) := by
  have notClosing : '"' ≠ shape.closing := by cases shape <;> decide
  simp [readMembers, notClosing]

theorem readMembers_stray (other : code ≠ shape.closing) (closes : isCloser code = true) :
    readMembers (depth + 1) shape named unclosed (code :: rest) =
      (readMembers depth shape named unclosed rest).map (Member.ofType none .unknown :: ·) := by
  have notQuote : code ≠ '"' := by
    rintro rfl
    contradiction
  simp [readMembers, other, notQuote, closes]

theorem readMembers_type (unquoted : code ≠ '"') (opens : isCloser code = false) :
    readMembers (depth + 1) shape named unclosed (code :: rest) =
      (readMembers depth shape named unclosed (readType depth named (code :: rest)).rest).map
        (Member.ofType none (readType depth named (code :: rest)).orUnknown :: ·) := by
  have notClosing : code ≠ shape.closing := by
    rintro rfl
    rw [shape.isCloser_closing] at opens
    contradiction
  simp [readMembers, notClosing, unquoted, opens]

/-! ## Parameters -/

variable {inBlock : Bool} {next : Char} {attributes : Attributes}

/-- What a text is to the reader of parameters: nothing but blanks, the end of a block, or a parameter,
whose attributes come before the end of the text or before another character. -/
inductive ParameterText (inBlock : Bool) (text : List Char) : Prop where
  | blank (blank : text.dropWhile Text.isAsciiBlank = []) : ParameterText inBlock text
  | closing {rest : List Char} (isBlock : inBlock = true)
    (first : text.dropWhile Text.isAsciiBlank = '>' :: rest) : ParameterText inBlock text
  | untyped {next : Char} {rest : List Char} {attributes : Attributes}
    (first : text.dropWhile Text.isAsciiBlank = next :: rest)
    (inside : ¬(inBlock = true ∧ next = '>'))
    (read : readAttributes .none (next :: rest) = (attributes, [])) : ParameterText inBlock text
  | typed {next code : Char} {rest left : List Char} {attributes : Attributes}
    (first : text.dropWhile Text.isAsciiBlank = next :: rest)
    (inside : ¬(inBlock = true ∧ next = '>'))
    (read : readAttributes .none (next :: rest) = (attributes, code :: left)) :
    ParameterText inBlock text

theorem parameterText_cases (inBlock : Bool) (text : List Char) : ParameterText inBlock text := by
  cases first : text.dropWhile Text.isAsciiBlank with
  | nil => exact .blank first
  | cons next rest =>
    by_cases inside : inBlock = true ∧ next = '>'
    · obtain ⟨isBlock, rfl⟩ := inside
      exact .closing isBlock first
    rcases read : readAttributes .none (next :: rest) with ⟨attributes, _ | ⟨code, left⟩⟩
    · exact .untyped first inside read
    · exact .typed first inside read

theorem readParameters_blank (blank : text.dropWhile Text.isAsciiBlank = []) :
    readParameters depth inBlock text =
      if inBlock then .failed .unterminatedSignature [] [] else .found [] [] := by
  rw [readParameters.eq_def, blank]

theorem readParameters_end (first : text.dropWhile Text.isAsciiBlank = '>' :: rest) :
    readParameters (depth + 1) true text = .found [] rest := by
  rw [readParameters.eq_def, first]
  rfl

/-- Attributes without a type end the reading. -/
theorem readParameters_untyped (first : text.dropWhile Text.isAsciiBlank = next :: rest)
    (inside : ¬(inBlock = true ∧ next = '>'))
    (read : readAttributes .none (next :: rest) = (attributes, [])) :
    readParameters (depth + 1) inBlock text = .failed .attributesWithoutType [] [] := by
  rw [readParameters.eq_def, first]
  simp only [if_neg inside, read]

theorem readParameters_stray {left : List Char}
    (first : text.dropWhile Text.isAsciiBlank = next :: rest)
    (inside : ¬(inBlock = true ∧ next = '>'))
    (read : readAttributes .none (next :: rest) = (attributes, code :: left))
    (closes : isCloser code = true) :
    readParameters (depth + 1) inBlock text =
      (readParameters depth inBlock (skipOffset left)).map (⟨attributes, .unknown⟩ :: ·) := by
  rw [readParameters.eq_def, first]
  simp only [if_neg inside, read, closes, if_true]

theorem readParameters_type {left : List Char}
    (first : text.dropWhile Text.isAsciiBlank = next :: rest)
    (inside : ¬(inBlock = true ∧ next = '>'))
    (read : readAttributes .none (next :: rest) = (attributes, code :: left))
    (opens : isCloser code = false) :
    readParameters (depth + 1) inBlock text =
      (readParameters depth inBlock (skipOffset (readType depth false (code :: left)).rest)).map
        (⟨attributes, (readType depth false (code :: left)).orUnknown⟩ :: ·) := by
  rw [readParameters.eq_def, first]
  simp only [if_neg inside, read, opens, Bool.false_eq_true, if_false]

end ForeignCall
