import ForeignCall.Proofs.Encoding.Rounds

/-! # Failures inside types

A failure inside a type makes that type unknown and goes no further. After the code of a wrapper, any
text is read. An aggregate is refused exactly if the reading of it comes to the end of the text without
its closing bracket (`NeverCloses`), whatever its members are. A signature is refused exactly if it is
blank, or if it ends in attributes that no type follows (`EndsInAttributes`).
-/

namespace ForeignCall

variable {named : Bool} {shape : Shape} {text name body rest : List Char}

/-! ## Aggregates -/

/-- What the text after the opening bracket of an aggregate is: a name that goes on to the end, a name
alone, or a name and members. -/
inductive AggregateText (shape : Shape) : List Char → Prop where
  | openName {text : List Char} (goesOn : ∀ c ∈ text, c ≠ '=' ∧ c ≠ shape.closing) :
    AggregateText shape text
  | forward {name rest : List Char} (inside : ∀ c ∈ name, c ≠ '=' ∧ c ≠ shape.closing) :
    AggregateText shape (name ++ shape.closing :: rest)
  | body {name body : List Char} (inside : ∀ c ∈ name, c ≠ '=' ∧ c ≠ shape.closing) :
    AggregateText shape (name ++ '=' :: body)

theorem aggregateText_cases (shape : Shape) (text : List Char) : AggregateText shape text := by
  rcases word_cases (fun c => c ≠ '=' && c ≠ shape.closing) text with
    goesOn | ⟨name, next, rest, rfl, inside, ends⟩
  · exact .openName (by simpa using goesOn)
  by_cases isSeparator : next = '='
  · exact isSeparator ▸ .body (by simpa using inside)
  · obtain rfl : next = shape.closing := by simpa [isSeparator] using ends
    exact .forward (by simpa using inside)

/-- An aggregate, given by the text after its opening bracket, that is not closed: its name goes on to the
end, or its members do, or the name of a member does. -/
inductive NeverCloses (shape : Shape) (text : List Char) : Prop where
  | name (goesOn : ∀ c ∈ text, c ≠ '=' ∧ c ≠ shape.closing) : NeverCloses shape text
  | members {name body : List Char} {members : List Member} (split : text = name ++ '=' :: body)
    (inside : ∀ c ∈ name, c ≠ '=' ∧ c ≠ shape.closing)
    (run : Rounds (MemberRound shape (body.head? = some '"')) body members []) : NeverCloses shape text
  | memberName {name body rest : List Char} {members : List Member} (split : text = name ++ '=' :: body)
    (inside : ∀ c ∈ name, c ≠ '=' ∧ c ≠ shape.closing)
    (run : Rounds (MemberRound shape (body.head? = some '"')) body members ('"' :: rest))
    (unquoted : '"' ∉ rest) : NeverCloses shape text

theorem typeAt_openName (goesOn : ∀ c ∈ text, c ≠ '=' ∧ c ≠ shape.closing) :
    typeAt named (shape.opening :: text) =
      .failed (.unterminatedAggregate shape (String.ofList text)) (shape.opening :: text) [] := by
  have inner : ∀ c ∈ text, (decide (c ≠ '=') && decide (c ≠ shape.closing)) = true := by simpa using goesOn
  rw [typeAt_aggregate, readAggregateName, List.takeWhile_eq_self_iff.mpr inner,
    List.dropWhile_eq_nil_iff.mpr inner]
  rfl

theorem typeAt_forward (inside : ∀ c ∈ name, c ≠ '=' ∧ c ≠ shape.closing) :
    typeAt named (shape.opening :: (name ++ shape.closing :: rest)) =
      .found (.forward shape (CType.normalizeName (some (String.ofList name)))) rest := by
  have noMembers : decide (shape.closing = '=') = false := by cases shape <;> rfl
  rw [typeAt_aggregate, readAggregateName_word inside (.inr rfl), noMembers]
  rfl

theorem typeAt_body (inside : ∀ c ∈ name, c ≠ '=' ∧ c ≠ shape.closing) :
    typeAt named (shape.opening :: (name ++ '=' :: body)) =
      (membersAt shape (body.head? = some '"') ⟨.unterminatedAggregate shape (String.ofList name),
          shape.opening :: (name ++ '=' :: body)⟩ body).map
        (.aggregate shape (CType.normalizeName (some (String.ofList name)))) := by
  rw [typeAt_aggregate, readAggregateName_word inside (.inl rfl)]
  rfl

/-- The reading of an aggregate that is not closed fails at the end of the text. -/
theorem NeverCloses.typeAt_eq (never : NeverCloses shape text) (named : Bool) :
    ∃ failure, typeAt named (shape.opening :: text) = ⟨.error failure, []⟩ := by
  cases never with
  | name goesOn => exact ⟨_, typeAt_openName goesOn⟩
  | members split inside run =>
    subst split
    rw [typeAt_body inside, membersAt_of_rounds run, membersAt_nil]
    exact ⟨_, rfl⟩
  | memberName split inside run unquoted =>
    subst split
    rw [typeAt_body inside, membersAt_of_rounds run, membersAt_openName unquoted]
    exact ⟨_, rfl⟩

theorem neverCloses_or_found (shape : Shape) (named : Bool) (text : List Char) :
    NeverCloses shape text ∨ ∃ type rest, typeAt named (shape.opening :: text) = .found type rest := by
  cases aggregateText_cases shape text with
  | openName goesOn => exact .inl (.name goesOn)
  | forward inside => exact .inr ⟨_, _, typeAt_forward inside⟩
  | @body name body inside =>
    obtain ⟨members, stop, run, atEnd⟩ := exists_memberRounds shape (body.head? = some '"') body
    cases atEnd with
    | input => exact .inl (.members rfl inside run)
    | openName unquoted => exact .inl (.memberName rfl inside run unquoted)
    | closing after =>
      rw [typeAt_body inside, membersAt_of_rounds run, membersAt_closing]
      exact .inr ⟨_, _, rfl⟩

theorem CType.parsePrefix_cons (code : Char) (text : List Char) :
    CType.parsePrefix (code :: text) =
      match (typeAt false (code :: text)).result with
      | .ok type => .ok (type, (typeAt false (code :: text)).rest)
      | .error failure => .error (failure.toError (code :: text)) :=
  rfl

/-- An aggregate at the start of a text is refused exactly if it is not closed. -/
theorem parsePrefix_aggregate_eq_error_iff :
    (∃ error, CType.parsePrefix (shape.opening :: text) = .error error) ↔ NeverCloses shape text := by
  constructor
  · rintro ⟨error, refused⟩
    rcases neverCloses_or_found shape false text with never | ⟨type, rest, found⟩
    · exact never
    · rw [CType.parsePrefix_cons, found] at refused
      cases refused
  · intro never
    obtain ⟨failure, failed⟩ := never.typeAt_eq false
    rw [CType.parsePrefix_cons, failed]
    exact ⟨_, rfl⟩

/-! ## Signatures -/

/-- A text of parameters that ends in the attributes of one. -/
def EndsInAttributes (text : List Char) : Prop :=
  ∃ parameters stop codes, Rounds (ParameterRound false) text parameters stop ∧
    stop.dropWhile Text.isAsciiBlank = codes ∧ codes ≠ [] ∧
    ∀ code ∈ codes, (Attribute.ofCode? code).isSome = true

/-- Attributes take all of a text exactly if each character stands for one. -/
theorem readAttributes_eq_nil_iff {set : Attributes} :
    (readAttributes set text).2 = [] ↔ ∀ code ∈ text, (Attribute.ofCode? code).isSome = true := by
  induction text generalizing set with
  | nil => simp [readAttributes]
  | cons code text ih =>
    rw [readAttributes]
    split
    next isVector =>
      obtain ⟨rest, rfl⟩ := List.head?_eq_some_iff.mp isVector.2
      simp [Attribute.ofCode?]
    next =>
      split
      next flag isFlag => simp [ih, isFlag]
      next notFlag => simp [notFlag]

theorem isBlank_of_isAttribute {code : Char} (isFlag : (Attribute.ofCode? code).isSome = true) :
    Text.isBlank code = false := by
  obtain ⟨flag, read⟩ := Option.isSome_iff_exists.mp isFlag
  rw [← Attribute.code_of_ofCode? read]
  cases flag <;> rfl

/-- The rounds of parameters end before nothing but blanks, unless the text ends in attributes. -/
theorem blankRounds_or_endsInAttributes (text : List Char) :
    (∃ parameters stop, Rounds (ParameterRound false) text parameters stop ∧
      stop.dropWhile Text.isAsciiBlank = []) ∨ EndsInAttributes text := by
  obtain ⟨parameters, stop, run, atEnd⟩ := exists_parameterRounds false text
  cases atEnd with
  | blank blank => exact .inl ⟨parameters, stop, run, blank⟩
  | closing isBlock first => contradiction
  | untyped first inside read =>
    refine .inr ⟨parameters, stop, _, run, first, List.cons_ne_nil _ _, ?_⟩
    exact readAttributes_eq_nil_iff.mp (congrArg Prod.snd read)

theorem parametersAt_of_blankRounds {parameters : List Parameter} {stop : List Char}
    (run : Rounds (ParameterRound false) text parameters stop)
    (blank : stop.dropWhile Text.isAsciiBlank = []) : parametersAt false text = .found parameters [] := by
  rw [parametersAt_of_rounds run, parametersAt_blank blank]
  simp [Reading.map, Reading.found, Except.map]

/-- A text of parameters is read to the end, unless it ends in attributes. -/
theorem parametersAt_cases (text : List Char) :
    (∃ parameters, parametersAt false text = .found parameters [] ∧
      (parameters = [] → ∀ c ∈ text, Text.isAsciiBlank c = true)) ∨
    EndsInAttributes text := by
  refine (blankRounds_or_endsInAttributes text).imp_left fun ⟨parameters, stop, run, blank⟩ => ?_
  refine ⟨parameters, parametersAt_of_blankRounds run blank, ?_⟩
  rintro rfl
  cases run
  exact Text.dropWhile_eq_nil_iff.mp blank

namespace EndsInAttributes

theorem parametersAt_eq (ends : EndsInAttributes text) :
    parametersAt false text = .failed .attributesWithoutType [] [] := by
  obtain ⟨parameters, stop, codes, run, first, nonempty, areFlags⟩ := ends
  obtain ⟨code, others, rfl⟩ := List.exists_cons_of_ne_nil nonempty
  have read : readAttributes .none (code :: others) = (_, []) :=
    Prod.ext rfl (readAttributes_eq_nil_iff.mpr areFlags)
  rw [parametersAt_of_rounds run, parametersAt_untyped first (by simp) read]
  rfl

theorem exists_not_isBlank (ends : EndsInAttributes text) : ∃ c ∈ text, Text.isBlank c = false := by
  obtain ⟨parameters, stop, codes, run, first, nonempty, areFlags⟩ := ends
  obtain ⟨code, others, rfl⟩ := List.exists_cons_of_ne_nil nonempty
  have unblanked : code :: others <:+ stop := first ▸ List.dropWhile_suffix _
  have within := suffix_of_parameterRounds run
  exact ⟨code, (unblanked.trans within).subset (List.mem_cons_self ..),
    isBlank_of_isAttribute (areFlags code (List.mem_cons_self ..))⟩

end EndsInAttributes

/-- A signature is refused exactly if it is blank or ends in attributes. -/
theorem Signature.parse_eq_error_iff {error : EncodingError} :
    Signature.parse text = .error error ↔
      (∀ c ∈ text, Text.isBlank c = true) ∧ error = .empty ∨
      EndsInAttributes text ∧ error = .malformed (textBytes text) .attributesWithoutType := by
  have blank_iff : (Text.trim text).isEmpty = true ↔ ∀ c ∈ text, Text.isBlank c = true := by
    rw [List.isEmpty_iff, Text.trim_eq_nil_iff]
  have disjoint (areBlank : ∀ c ∈ text, Text.isBlank c = true) : ¬EndsInAttributes text := fun ends => by
    obtain ⟨c, present, notBlank⟩ := ends.exists_not_isBlank
    rw [areBlank c present] at notBlank
    contradiction
  rw [parse, readParameters_eq false (by omega)]
  split
  next isBlank =>
    have areBlank := blank_iff.mp isBlank
    constructor
    · rintro ⟨⟩
      exact .inl ⟨areBlank, rfl⟩
    · rintro (⟨_, rfl⟩ | ⟨ends, _⟩)
      · rfl
      · exact absurd ends (disjoint areBlank)
  next notBlank =>
    rw [blank_iff] at notBlank
    rcases parametersAt_cases text with ⟨parameters, found, nonempty⟩ | ends
    · have accepted : ¬EndsInAttributes text := fun ends => by
        rw [ends.parametersAt_eq] at found
        cases found
      rw [found]
      cases parameters with
      | nil =>
        exact absurd (fun c present => Text.isBlank_of_isAsciiBlank (nonempty rfl c present)) notBlank
      | cons result arguments =>
        constructor
        · rintro ⟨⟩
        · rintro (⟨areBlank, _⟩ | ⟨ends, _⟩)
          · exact absurd areBlank notBlank
          · exact absurd ends accepted
    · rw [ends.parametersAt_eq]
      constructor
      · rintro ⟨⟩
        exact .inr ⟨ends, rfl⟩
      · rintro (⟨areBlank, _⟩ | ⟨_, rfl⟩)
        · exact absurd areBlank notBlank
        · rfl

/-! ## All texts -/

/-- After the code of a wrapper any text is read. An aggregate is refused exactly if it is not closed, and
then at the end of the text. A signature is refused exactly if it is blank or ends in attributes. -/
theorem failures_degrade (text : String) :
    (∀ wrapper : Wrapper, ∃ inner rest,
      CType.parsePrefix (wrapper.code :: text.toList) = .ok (.wrapped wrapper inner, rest)) ∧
    (∀ shape : Shape, (∃ error, CType.parsePrefix (shape.opening :: text.toList) = .error error) ↔
      NeverCloses shape text.toList) ∧
    (∀ (shape : Shape) (error : EncodingError),
      CType.parsePrefix (shape.opening :: text.toList) = .error error →
        (typeAt false (shape.opening :: text.toList)).rest = []) ∧
    ∀ error, Signature.ofEncoding text = .error error ↔
      (∀ c ∈ text.toList, Text.isBlank c = true) ∧ error = .empty ∨
      EndsInAttributes text.toList ∧
        error = .malformed (textBytes text.toList) .attributesWithoutType := by
  refine ⟨fun wrapper => ?_, fun shape => parsePrefix_aggregate_eq_error_iff,
    fun shape error refused => ?_, fun error => Signature.parse_eq_error_iff⟩
  · rw [CType.parsePrefix_cons, typeAt_wrapper]
    exact ⟨_, _, rfl⟩
  · obtain ⟨failure, failed⟩ := (parsePrefix_aggregate_eq_error_iff.mp ⟨error, refused⟩).typeAt_eq false
    rw [failed]

/-- A stray bracket is a member; the name after them is not closed. -/
theorem failures_degrade_openName :
    CType.parsePrefix "\x7bS=]i\"é".toList = .error (.malformed 5 .unterminatedName) ∧
      (typeAt false "\x7bS=]i\"é".toList).rest = [] := by
  have refused : CType.parsePrefix "\x7bS=]i\"é".toList = .error (.malformed 5 .unterminatedName) := by
    decide +kernel
  exact ⟨refused, (failures_degrade "S=]i\"é").2.2.1 .struct _ refused⟩

end ForeignCall
