import ForeignCall.Proofs.Encoding.Steps

/-! # How far readers read

A reader leaves an end of its text, whether it succeeds or fails (`Stays`). A type that does not begin
with a closing bracket, a member and a parameter take at least one character, so reading members or
parameters one after the other always advances.
-/

namespace ForeignCall

variable {α β : Type} {text rest start : List Char}

namespace Reading

theorem rest_map (f : α → β) (reading : Reading α) : (reading.map f).rest = reading.rest := rfl

/-- A reading followed by another leaves an end of what the first one leaves. -/
theorem rest_andThen_suffix {reading : Reading α} {next : α → List Char → Reading β}
    (following : ∀ value rest, (next value rest).rest <:+ rest) :
    (reading.andThen next).rest <:+ reading.rest := by
  unfold andThen
  split
  · exact following _ _
  · exact List.suffix_rfl

end Reading

/-! ## Words -/

/-- A number is read as far as there are digits, whether it can be represented or not. -/
theorem rest_readQuantity (quantity : Quantity) (start text : List Char) :
    (readQuantity quantity start text).rest = text.dropWhile Char.isDigit := by
  unfold readQuantity
  dsimp only
  split
  next none =>
    have unchanged := List.takeWhile_append_dropWhile (p := Char.isDigit) (l := text)
    rw [List.isEmpty_iff.mp none, List.nil_append] at unchanged
    exact unchanged.symm
  next =>
    split <;> rfl

theorem rest_readQuoted_suffix (start text : List Char) : (readQuoted start text).rest <:+ text := by
  unfold readQuoted
  split
  next quote rest after =>
    exact (List.suffix_cons quote rest).trans (after ▸ List.dropWhile_suffix _)
  next => exact List.nil_suffix

theorem rest_readAggregateName_suffix (shape : Shape) (start text : List Char) :
    (readAggregateName shape start text).rest <:+ text := by
  unfold readAggregateName
  dsimp only
  split
  next => exact List.nil_suffix
  next next rest after =>
    exact (List.suffix_cons next rest).trans (after ▸ List.dropWhile_suffix _)

theorem readAttributes_suffix (set : Attributes) (text : List Char) :
    (readAttributes set text).2 <:+ text := by
  induction text generalizing set with
  | nil => exact List.suffix_rfl
  | cons code rest ih =>
    rw [readAttributes]
    split
    · exact List.suffix_rfl
    · split
      · exact (ih _).trans (List.suffix_cons code rest)
      · exact List.suffix_rfl

theorem skipOffset_suffix (text : List Char) : skipOffset text <:+ text := by
  unfold skipOffset
  split
  next sign digit rest =>
    split
    · exact (List.dropWhile_suffix _).trans
        ((List.suffix_cons digit rest).trans (List.suffix_cons sign _))
    · exact List.dropWhile_suffix _
  next => exact List.dropWhile_suffix _

/-- An end of a text that is not the whole text is an end of what follows the first character. -/
theorem suffix_of_cons_suffix {code next : Char} (left : code :: rest <:+ next :: text) :
    rest <:+ text := by
  rcases List.suffix_cons_iff.mp left with same | inner
  · exact (List.cons.inj same).2 ▸ List.suffix_rfl
  · exact (List.suffix_cons code rest).trans inner

/-! ## Types, members and parameters -/

/-- With a depth, every reader leaves an end of its text. -/
structure Stays (depth : Nat) : Prop where
  type : ∀ named text, (readType depth named text).rest <:+ text
  members : ∀ shape named unclosed text,
    (readMembers depth shape named unclosed text).rest <:+ text
  parameters : ∀ inBlock text, (readParameters depth inBlock text).rest <:+ text

namespace Stays

variable {depth : Nat} {named inBlock : Bool} {shape : Shape} {unclosed : Failure} {code next : Char}

theorem closeArray (stays : Stays depth) (count : Nat) (text : List Char) :
    (ForeignCall.closeArray count (readType depth false text)).rest <:+ text := by
  have inner := stays.type false text
  unfold ForeignCall.closeArray
  split
  next left after => exact (List.suffix_cons ']' left).trans (after ▸ inner)
  next => exact inner

theorem readBody (stays : Stays depth) (start : List Char) (name : String) (isComplete : Bool)
    (text : List Char) : (ForeignCall.readBody depth shape start name isComplete text).rest <:+ text := by
  unfold ForeignCall.readBody
  split
  · exact stays.members _ _ _ text
  · exact List.suffix_rfl

theorem signature (stays : Stays depth) (named : Bool) (inner : List Char) :
    (readType (depth + 1) named ('@' :: '?' :: '<' :: inner)).rest <:+ inner := by
  rw [readType_signature]
  refine (Reading.rest_andThen_suffix fun parameters rest => ?_).trans (stays.parameters true inner)
  unfold blockOf
  split <;> exact List.suffix_rfl

/-- A type takes the first character of a text, unless that is a closing bracket. -/
theorem type_cons (stays : Stays depth) (named : Bool) (text : List Char)
    (opens : isCloser code = false) : (readType (depth + 1) named (code :: text)).rest <:+ text := by
  cases opening_cases code with
  | closer closes =>
    rw [opens] at closes
    contradiction
  | single found alone => simp only [alone, List.suffix_rfl]
  | bitfield =>
    rw [readType_bitfield, Reading.rest_map, rest_readQuantity]
    exact List.dropWhile_suffix _
  | array =>
    rw [readType_array]
    refine (Reading.rest_andThen_suffix stays.closeArray).trans ?_
    rw [rest_readQuantity]
    exact List.dropWhile_suffix _
  | aggregate shape =>
    rw [readType_aggregate]
    exact (Reading.rest_andThen_suffix fun name => stays.readBody _ name.1 name.2).trans
      (rest_readAggregateName_suffix _ _ _)
  | wrapper wrapper =>
    rw [readType_wrapper]
    exact stays.type named text
  | object =>
    cases objectText_cases named text with
    | signature inner =>
      exact (stays.signature named inner).trans
        ((List.suffix_cons '<' inner).trans (List.suffix_cons '?' _))
    | @block rest unopened =>
      rw [readType_block unopened]
      exact List.suffix_cons '?' rest
    | @restricted inner quotes =>
      rw [readType_restricted quotes, Reading.rest_map]
      exact (rest_readQuoted_suffix _ inner).trans (List.suffix_cons '"' inner)
    | plain unmarked unquoted =>
      rw [readType_plain unmarked unquoted]
      exact List.suffix_rfl

theorem type_succ (stays : Stays depth) (named : Bool) (text : List Char) :
    (readType (depth + 1) named text).rest <:+ text := by
  cases text with
  | nil => exact List.suffix_rfl
  | cons code text =>
    cases closes : isCloser code with
    | true =>
      rw [readType_closer closes]
      exact List.suffix_rfl
    | false => exact (stays.type_cons named text closes).trans (List.suffix_cons code text)

theorem members_succ (stays : Stays depth) (shape : Shape) (named : Bool) (unclosed : Failure)
    (text : List Char) : (readMembers (depth + 1) shape named unclosed text).rest <:+ text := by
  cases text with
  | nil => exact List.suffix_rfl
  | cons next text =>
    cases memberStart_cases shape next with
    | closing =>
      rw [readMembers_closing]
      exact List.suffix_cons _ text
    | quote =>
      rw [readMembers_quote]
      refine (Reading.rest_andThen_suffix fun name rest => ?_).trans
        ((rest_readQuoted_suffix _ text).trans (List.suffix_cons '"' text))
      exact (stays.members ..).trans (stays.type named rest)
    | stray other closes =>
      rw [readMembers_stray other closes]
      exact (stays.members ..).trans (List.suffix_cons next text)
    | type unquoted opens =>
      rw [readMembers_type unquoted opens]
      exact (stays.members ..).trans (stays.type named _)

/-- A parameter leaves an end of what its type does and of what follows the first character of it. -/
theorem parameters_cons (stays : Stays depth) {attributes : Attributes} {left bound : List Char}
    (leftStays : left <:+ bound)
    (typeStays : isCloser code = false → (readType depth false (code :: left)).rest <:+ bound)
    (first : text.dropWhile Text.isAsciiBlank = next :: rest)
    (inside : ¬(inBlock = true ∧ next = '>'))
    (read : readAttributes .none (next :: rest) = (attributes, code :: left)) :
    (readParameters (depth + 1) inBlock text).rest <:+ bound := by
  cases closes : isCloser code with
  | true =>
    rw [readParameters_stray first inside read closes]
    exact (stays.parameters inBlock _).trans ((skipOffset_suffix left).trans leftStays)
  | false =>
    rw [readParameters_type first inside read closes]
    exact (stays.parameters inBlock _).trans ((skipOffset_suffix _).trans (typeStays closes))

theorem parameters_succ (stays : Stays depth) (inBlock : Bool) (text : List Char) :
    (readParameters (depth + 1) inBlock text).rest <:+ text := by
  cases parameterText_cases inBlock text with
  | blank blank =>
    rw [readParameters_blank blank]
    split <;> exact List.nil_suffix
  | @closing rest isBlock first =>
    subst isBlock
    rw [readParameters_end first]
    exact (List.suffix_cons '>' rest).trans (first ▸ List.dropWhile_suffix _)
  | untyped first inside read =>
    rw [readParameters_untyped first inside read]
    exact List.nil_suffix
  | @typed next code rest left _ first inside read =>
    have unblanked : next :: rest <:+ text := first ▸ List.dropWhile_suffix _
    have typed : code :: left <:+ next :: rest := by
      simpa [read] using readAttributes_suffix .none (next :: rest)
    exact (stays.parameters_cons (List.suffix_cons code left) (fun _ => stays.type false _) first
      inside read).trans (typed.trans unblanked)

end Stays

theorem stays (depth : Nat) : Stays depth := by
  induction depth with
  | zero =>
    refine ⟨fun named text => ?_, fun shape named unclosed text => ?_, fun inBlock text => ?_⟩
    · cases text <;> exact List.suffix_rfl
    · cases text <;> exact List.suffix_rfl
    · cases first : text.dropWhile Text.isAsciiBlank with
      | nil =>
        rw [readParameters_blank first]
        split <;> exact List.nil_suffix
      | cons next rest =>
        have unblanked : next :: rest <:+ text := first ▸ List.dropWhile_suffix _
        rw [readParameters.eq_def, first]
        exact unblanked
  | succ depth ih => exact ⟨ih.type_succ, ih.members_succ, ih.parameters_succ⟩

/-! ## Progress -/

variable {depth : Nat} {named inBlock : Bool} {shape : Shape} {unclosed : Failure} {code next : Char}

/-- A type takes at least the first character, unless that is a closing bracket. -/
theorem rest_readType_cons (enough : 0 < depth) (named : Bool) (text : List Char)
    (opens : isCloser code = false) : (readType depth named (code :: text)).rest <:+ text := by
  obtain ⟨depth, rfl⟩ := Nat.exists_eq_add_one.mpr enough
  exact (stays depth).type_cons named text opens

/-- Members, or their end, take at least the first character. -/
theorem rest_readMembers_cons (enough : 0 < depth) (shape : Shape) (named : Bool)
    (unclosed : Failure) (next : Char) (text : List Char) :
    (readMembers (depth + 1) shape named unclosed (next :: text)).rest <:+ text := by
  have others (rest : List Char) := (stays depth).members shape named unclosed rest
  cases memberStart_cases shape next with
  | closing =>
    rw [readMembers_closing]
    exact List.suffix_rfl
  | quote =>
    rw [readMembers_quote]
    refine (Reading.rest_andThen_suffix fun name rest => ?_).trans (rest_readQuoted_suffix _ text)
    exact (others _).trans ((stays depth).type named rest)
  | stray other closes =>
    rw [readMembers_stray other closes]
    exact others text
  | type unquoted opens =>
    rw [readMembers_type unquoted opens]
    exact (others _).trans (rest_readType_cons enough named text opens)

/-- Parameters, or their end, take at least the first character that is not blank. -/
theorem rest_readParameters_cons (enough : 0 < depth)
    (first : text.dropWhile Text.isAsciiBlank = next :: rest) :
    (readParameters (depth + 1) inBlock text).rest <:+ rest := by
  by_cases inside : inBlock = true ∧ next = '>'
  · obtain ⟨rfl, rfl⟩ := inside
    rw [readParameters_end first]
    exact List.suffix_rfl
  rcases read : readAttributes .none (next :: rest) with ⟨attributes, _ | ⟨code, left⟩⟩
  · rw [readParameters_untyped first inside read]
    exact List.nil_suffix
  · have typed : code :: left <:+ next :: rest := by
      simpa [read] using readAttributes_suffix .none (next :: rest)
    have after : left <:+ rest := suffix_of_cons_suffix typed
    exact (stays depth).parameters_cons after
      (fun opens => (rest_readType_cons enough false left opens).trans after) first inside read

end ForeignCall
