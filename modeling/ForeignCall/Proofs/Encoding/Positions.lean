import ForeignCall.Proofs.Encoding.Finite
import ForeignCall.Proofs.Signature.PropertyRounds

/-! # Positions

A reader stands at an end of its text, so at a boundary between characters. It leaves an end of that end,
and each round of reading members, parameters or the parts of a property leaves a shorter one: positions
only grow, and stay within the text. A failure is at an end of the text as well (`typeAt_failure`,
`parametersAt_failure`), and the position of an error is the offset of that end. In a property, where the
type is read as a text of its own, its errors are moved by the offset of the type.
-/

namespace ForeignCall

variable {named inBlock : Bool} {shape : Shape} {unclosed failure : Failure} {text rest body : List Char}

/-! ## Where failures are -/

theorem Reading.error_of_map {α β : Type} {f : α → β} {reading : Reading α}
    (failed : (reading.map f).result = .error failure) : reading.result = .error failure := by
  unfold map at failed
  cases result : reading.result <;> rw [result] at failed <;> cases failed
  rfl

theorem Reading.error_of_andThen {α β : Type} {reading : Reading α} {next : α → List Char → Reading β}
    (failed : (reading.andThen next).result = .error failure) :
    reading.result = .error failure ∨
      ∃ value, reading.result = .ok value ∧ (next value reading.rest).result = .error failure := by
  unfold andThen at failed
  split at failed
  next value found => exact .inr ⟨value, found, failed⟩
  next other refused =>
    cases failed
    exact .inl refused

theorem readQuantity_failure {quantity : Quantity} {start : List Char}
    (failed : (readQuantity quantity start text).result = .error failure) :
    failure.text = start ∨ failure.text = text := by
  unfold readQuantity at failed
  dsimp only at failed
  split at failed
  · cases failed
    exact .inr rfl
  · split at failed <;> cases failed
    exact .inl rfl

theorem readQuoted_failure {start : List Char} (failed : (readQuoted start text).result = .error failure) :
    failure.text = start := by
  unfold readQuoted at failed
  split at failed <;> cases failed
  rfl

/-- Members fail for want of their closing bracket, or where the name of one of them is not closed. -/
theorem membersAt_failure (failed : (membersAt shape named unclosed text).result = .error failure) :
    failure = unclosed ∨ failure.text <:+ text := by
  obtain ⟨members, stop, run, atEnd⟩ := exists_memberRounds shape named text
  have within := suffix_of_memberRounds run
  rw [membersAt_of_rounds run] at failed
  cases atEnd with
  | input =>
    cases failed
    exact .inl rfl
  | closing =>
    rw [membersAt_closing] at failed
    cases failed
  | openName unquoted =>
    rw [membersAt_openName unquoted] at failed
    cases failed
    exact .inr within

/-- Parameters fail at the end of the text only. -/
theorem parametersAt_failure (failed : (parametersAt inBlock text).result = .error failure) :
    failure.text = [] := by
  obtain ⟨parameters, stop, run, atEnd⟩ := exists_parameterRounds inBlock text
  rw [parametersAt_of_rounds run] at failed
  cases atEnd with
  | blank blank =>
    rw [parametersAt_blank blank] at failed
    cases inBlock <;> cases failed
    rfl
  | closing isBlock first =>
    subst isBlock
    rw [parametersAt_end first] at failed
    cases failed
  | untyped first inside read =>
    rw [parametersAt_untyped first inside read] at failed
    cases failed
    rfl

/-- A type fails where it starts or further on. -/
theorem typeAt_failure (failed : (typeAt named text).result = .error failure) : failure.text <:+ text := by
  have derived : DerivesType named text (typeAt named text) := derivesType_iff.mpr rfl
  generalize typeAt named text = reading at derived failed
  cases derived with
  | none | closer closes | openName goesOn =>
    cases failed
    exact List.suffix_rfl
  | @single _ _ _ found _ =>
    cases found <;> cases failed
    exact List.suffix_rfl
  | @bitfield _ text =>
    rcases readQuantity_failure (Reading.error_of_map failed) with same | same
    · exact same ▸ List.suffix_rfl
    · exact same ▸ List.suffix_cons 'b' text
  | @uncounted _ text rest other refused =>
    cases failed
    rcases readQuantity_failure (congrArg Reading.result refused) with same | same
    · exact same ▸ List.suffix_rfl
    · exact same ▸ List.suffix_cons '[' text
  | @array _ text rest count element counted inner =>
    have counted' := rest_readQuantity_suffix .arrayLength ('[' :: text) text
    rw [counted] at counted'
    have within : element.rest <:+ rest := typeAt_eq_of_derives inner ▸ rest_typeAt false rest
    unfold closeArray at failed
    split at failed <;> cases failed
    exact (within.trans counted').trans (List.suffix_cons '[' text)
  | @aggregate _ shape name body members inside inner =>
    rw [← membersAt_eq_of_derives inner] at failed
    rcases membersAt_failure (Reading.error_of_map failed) with rfl | within
    · exact List.suffix_rfl
    · have inText : body <:+ name ++ '=' :: body :=
        (List.suffix_cons '=' body).trans (List.suffix_append name _)
      exact (within.trans inText).trans (List.suffix_cons _ _)
  | @signature _ text parameters inner =>
    rw [← parametersAt_eq_of_derives inner] at failed
    rcases Reading.error_of_andThen failed with refused | ⟨value, _, empty⟩
    · rw [parametersAt_failure refused]
      exact List.nil_suffix
    · unfold blockOf at empty
      split at empty <;> cases empty
      exact ⟨['@', '?', '<'], rfl⟩
  | @restricted _ text quotes =>
    rw [readQuoted_failure (Reading.error_of_map failed)]
    exact List.suffix_cons '@' _
  | forward inside | wrapper inner | block unopened | plain unmarked unquoted => cases failed

/-! ## Where errors are -/

/-- An error of a text, at an end of it if it has a position at all. -/
def EncodingError.IsPlaced (text : List Char) : EncodingError → Prop
  | malformed offset _ => ∃ rest, rest <:+ text ∧ offset = byteOffset text rest
  | _ => True

variable {error : EncodingError}

/-- An error of an end of the text, moved by the offset of that end, is an error of the text. -/
theorem EncodingError.IsPlaced.shift (placed : error.IsPlaced body) (within : body <:+ text) :
    (error.shift (byteOffset text body)).IsPlaced text := by
  cases error with
  | empty => exact ⟨body, within, rfl⟩
  | malformed offset reason =>
    obtain ⟨rest, inner, rfl⟩ := placed
    exact ⟨rest, inner.trans within, byteOffset_add within inner⟩
  | duplicateAttribute | unknownAttribute => trivial

theorem CType.parsePrefix_isPlaced (refused : CType.parsePrefix text = .error error) :
    error.IsPlaced text := by
  cases text with
  | nil =>
    cases refused
    trivial
  | cons code text =>
    rw [CType.parsePrefix_cons] at refused
    split at refused
    · cases refused
    next failure failed =>
      cases refused
      exact ⟨_, typeAt_failure failed, rfl⟩

theorem CType.parse_isPlaced (refused : CType.parse text = .error error) : error.IsPlaced text := by
  unfold CType.parse at refused
  rcases read : CType.parsePrefix text with other | ⟨type, rest⟩
  · rw [read] at refused
    cases refused
    exact CType.parsePrefix_isPlaced read
  · rw [read] at refused
    dsimp only [Except.bind] at refused
    split at refused <;> cases refused
    exact ⟨rest, CType.rest_parsePrefix read, rfl⟩

theorem Signature.parse_isPlaced (refused : Signature.parse text = .error error) :
    error.IsPlaced text := by
  rcases Signature.parse_eq_error_iff.mp refused with ⟨_, rfl⟩ | ⟨_, rfl⟩
  · trivial
  · exact ⟨[], List.nil_suffix, rfl⟩

namespace Property

variable {total : List Char} {property : Property} {code : Char}

/-- The type of a property is read as a text of its own, and its errors are moved to where it stands. -/
theorem readPart_type_error (total : List Char) (untyped : property.type = none)
    (refused : CType.parsePrefix body = .error error) :
    readPart total property 'T' body = .error (error.shift (byteOffset total body)) := by
  simp only [readPart, untyped, Option.isSome_none, Bool.false_eq_true, ↓reduceIte, refused]
  rfl

theorem readPart_isPlaced (within : body <:+ total)
    (refused : readPart total property code body = .error error) : error.IsPlaced total := by
  unfold readPart at refused
  dsimp only at refused
  split at refused
  · split at refused
    · cases refused
      trivial
    · split at refused
      · cases refused
      next other inner =>
        cases refused
        exact (CType.parsePrefix_isPlaced inner).shift within
  · split at refused
    · cases refused
      trivial
    · split at refused
      · cases refused
        exact ⟨body, within, rfl⟩
      · unfold add at refused
        split at refused <;> cases refused
        trivial

theorem End.isPlaced {state : Property × List Char} (ends : End total state (.error error))
    (within : state.2 <:+ total) : error.IsPlaced total := by
  cases ends with
  | @unseparated _ _ code other body rest read stray =>
    exact ⟨other :: rest, (rest_readPart read).trans ((List.suffix_cons code body).trans within), rfl⟩
  | @refused _ code body _ read =>
    exact readPart_isPlaced ((List.suffix_cons code body).trans within) read

theorem parse_eq_of_rounds {codes : List Char} {stop : Property × List Char}
    {outcome : Except EncodingError Property} (run : Rounds (Round text) ({}, text) codes stop)
    (ends : End text stop outcome) (nonempty : text ≠ []) : parse text = outcome := by
  rw [parse, if_neg (by simpa using nonempty)]
  exact readParts_of_rounds run ends (Nat.le_refl _)

theorem parse_isPlaced (refused : parse text = .error error) : error.IsPlaced text := by
  by_cases nonempty : text = []
  · subst nonempty
    cases refused
    trivial
  obtain ⟨codes, stop, outcome, run, ends⟩ := exists_rounds text ({}, text)
  rw [parse_eq_of_rounds run ends nonempty] at refused
  subst refused
  exact ends.isPlaced (suffix_of_rounds run)

end Property

/-! ## All texts -/

/-- The words that readers look for: digits, blanks, what stands before a quote, before a comma, and in the
names of structures and unions. -/
def wordClasses : List (Char → Bool) :=
  [Char.isDigit, Text.isAsciiBlank, (· ≠ '"'), (· ≠ ','),
    fun c => c ≠ '=' && c ≠ Shape.closing .struct, fun c => c ≠ '=' && c ≠ Shape.closing .union]

theorem ne_of_beyond {c ascii : Char} (beyond : 128 ≤ c.toNat) (small : ascii.toNat < 128) : c ≠ ascii := by
  rintro rfl
  omega

/-- None of these classes tells characters beyond ASCII apart. -/
theorem isUniform_of_mem {p : Char → Bool} (isClass : p ∈ wordClasses) : Text.IsUniform p := by
  simp only [wordClasses, List.mem_cons, List.not_mem_nil, or_false] at isClass
  rcases isClass with rfl | rfl | rfl | rfl | rfl | rfl
  · refine ⟨false, fun c beyond => ?_⟩
    simp only [Char.isDigit, ge_iff_le, UInt32.le_iff_toNat_le, Bool.and_eq_false_iff,
      decide_eq_false_iff_not]
    exact .inr (Nat.not_le.mpr (Nat.lt_of_lt_of_le (by decide) beyond))
  · refine ⟨false, fun c beyond => ?_⟩
    have other (ascii : Char) (small : ascii.toNat < 128) := ne_of_beyond beyond small
    simp [Text.isAsciiBlank, other]
  · exact ⟨true, fun c beyond => decide_eq_true (ne_of_beyond beyond (by decide))⟩
  · exact ⟨true, fun c beyond => decide_eq_true (ne_of_beyond beyond (by decide))⟩
  · refine ⟨true, fun c beyond => ?_⟩
    have other (ascii : Char) (small : ascii.toNat < 128) := ne_of_beyond beyond small
    simp [Shape.closing, other]
  · refine ⟨true, fun c beyond => ?_⟩
    have other (ascii : Char) (small : ascii.toNat < 128) := ne_of_beyond beyond small
    simp [Shape.closing, other]

/-- What holds of the positions in a text while it is read, from whatever end of it a reader starts. -/
structure HasSoundPositions (text : String) : Prop where
  /-- Readings are derived in finitely many steps, and every depth beyond the length gives the same. -/
  derived : ∀ rest, rest <:+ text.toList → ∀ depth, rest.length < depth →
    (∀ named, DerivesType named rest (readType depth named rest)) ∧
    (∀ shape named unclosed,
      DerivesMembers shape named unclosed rest (readMembers depth shape named unclosed rest)) ∧
    ∀ inBlock, DerivesParameters inBlock rest (readParameters depth inBlock rest)
  /-- The rounds of a property come to an end, and every count from the length on gives the same. -/
  ended : ∃ codes stop outcome, Rounds (Property.Round text.toList) ({}, text.toList) codes stop ∧
    Property.End text.toList stop outcome ∧
      ∀ count, text.toList.length ≤ count → Property.readParts text.toList count {} text.toList = outcome
  /-- An end of the text begins at a boundary within it. -/
  boundary : ∀ rest, rest <:+ text.toList →
    IsBoundary text (byteOffset text.toList rest) ∧ byteOffset text.toList rest ≤ text.utf8ByteSize
  /-- The byte at a position is the first byte of the character there, and the position behind that character
  is as many bytes further as the character has. -/
  character : ∀ c rest, c :: rest <:+ text.toList →
    (Text.utf8 (c :: rest)).head?.map Text.ofByte = some (Property.leadByte c) ∧
      byteOffset text.toList rest = byteOffset text.toList (c :: rest) + (String.utf8EncodeChar c).length
  /-- A word that is looked for byte by byte ends where it ends character by character. -/
  word : ∀ p ∈ wordClasses, ∀ rest, rest <:+ text.toList →
    byteOffset text.toList (rest.dropWhile p) =
        byteOffset text.toList rest + ((Text.utf8 rest).takeWhile (p ∘ Text.ofByte)).length ∧
      (Text.utf8 rest).takeWhile (p ∘ Text.ofByte) = Text.utf8 (rest.takeWhile p)
  /-- Readers go from an end of the text to an end of that. -/
  left : ∀ rest, rest <:+ text.toList →
    (∀ named, (typeAt named rest).rest <:+ rest) ∧
    (∀ shape named unclosed, (membersAt shape named unclosed rest).rest <:+ rest) ∧
    (∀ inBlock, (parametersAt inBlock rest).rest <:+ rest)
  /-- Each round of reading members goes forward. -/
  members : ∀ shape named start member stop, start <:+ text.toList →
    MemberRound shape named start member stop →
      stop <:+ text.toList ∧ byteOffset text.toList start < byteOffset text.toList stop
  /-- Each round of reading parameters goes forward. -/
  parameters : ∀ inBlock start parameter stop, start <:+ text.toList →
    ParameterRound inBlock start parameter stop →
      stop <:+ text.toList ∧ byteOffset text.toList start < byteOffset text.toList stop
  /-- Each round of reading the parts of a property goes forward. -/
  parts : ∀ start code stop, start.2 <:+ text.toList → Property.Round text.toList start code stop →
    stop.2 <:+ text.toList ∧ byteOffset text.toList start.2 < byteOffset text.toList stop.2
  /-- The position of an error is a boundary within the text. -/
  errors : ∀ offset reason,
    CType.ofEncoding text = .error (.malformed offset reason) ∨
    CType.parsePrefix text.toList = .error (.malformed offset reason) ∨
    Signature.ofEncoding text = .error (.malformed offset reason) ∨
    Property.ofEncoding text = .error (.malformed offset reason) →
      IsBoundary text offset ∧ offset ≤ text.utf8ByteSize
  /-- An error in the type of a property is where the type alone has it, moved by the offset of the type. -/
  propertyType : ∀ codes property body error,
    Rounds (Property.Round text.toList) ({}, text.toList) codes (property, 'T' :: body) →
      property.type = none → CType.parsePrefix body = .error error →
        Property.ofEncoding text = .error (error.shift (byteOffset text.toList body))

/-- Every text is read to an end, with positions that only grow, at boundaries, within the text. -/
theorem hasSoundPositions (text : String) : HasSoundPositions text where
  derived rest _ depth enough := by
    refine ⟨fun named => ?_, fun shape named unclosed => ?_, fun inBlock => ?_⟩
    · exact derivesType_iff.mpr (readType_eq named (Nat.le_of_lt enough))
    · exact derivesMembers_iff.mpr (readMembers_eq shape named unclosed enough)
    · exact derivesParameters_iff.mpr (readParameters_eq inBlock enough)
  ended := by
    obtain ⟨codes, stop, outcome, run, ends⟩ := Property.exists_rounds text.toList ({}, text.toList)
    exact ⟨codes, stop, outcome, run, ends, fun count => Property.readParts_of_rounds run ends⟩
  boundary rest within := ⟨isBoundary_byteOffset within, byteOffset_le_size rest⟩
  character c rest within := by
    rw [String.length_utf8EncodeChar]
    exact ⟨Text.head?_utf8_cons c rest, byteOffset_tail within⟩
  word p isClass rest within := by
    obtain ⟨taken, _⟩ := Text.takeWhile_utf8 (isUniform_of_mem isClass) rest
    rw [taken, Text.length_utf8]
    exact ⟨byteOffset_dropWhile p within, rfl⟩
  left rest _ :=
    ⟨fun named => rest_typeAt named rest,
      fun shape named unclosed => (stays _).members shape named unclosed rest,
      fun inBlock => (stays _).parameters inBlock rest⟩
  members shape named start member stop within round := by
    obtain ⟨next, rest, rfl, further⟩ := round.suffix_tail
    exact ⟨round.suffix.trans within, byteOffset_lt within further⟩
  parameters inBlock start parameter stop within round := by
    obtain ⟨code, rest, typed, further⟩ := round.suffix_tail
    exact ⟨round.suffix.trans within, Nat.lt_of_le_of_lt (byteOffset_le within typed)
      (byteOffset_lt (typed.trans within) further)⟩
  parts start code stop within round := by
    obtain ⟨body, split, further⟩ := round.suffix_tail
    refine ⟨round.suffix.trans within, ?_⟩
    rw [split] at within ⊢
    exact byteOffset_lt within further
  errors offset reason refused := by
    obtain ⟨rest, within, rfl⟩ : (EncodingError.malformed offset reason).IsPlaced text.toList := by
      rcases refused with refused | refused | refused | refused
      · exact CType.parse_isPlaced refused
      · exact CType.parsePrefix_isPlaced refused
      · exact Signature.parse_isPlaced refused
      · exact Property.parse_isPlaced refused
    exact ⟨isBoundary_byteOffset within, byteOffset_le_size rest⟩
  propertyType codes property body error run untyped refused := by
    have nonempty : text.toList ≠ [] := fun none => by
      have within := Property.suffix_of_rounds run
      rw [none, List.suffix_nil] at within
      cases within
    have fails := Property.readPart_type_error text.toList untyped refused
    exact Property.parse_eq_of_rounds run (.refused fails) nonempty

/-- The type begins at byte 5, and lacks the length of its array at its own byte 1. -/
example : Property.ofEncoding "Vé,T[é" = .error (.malformed 6 (.expected .arrayLength)) := by decide +kernel

end ForeignCall
