import Mathlib.Data.List.TakeWhile
import ForeignCall.Proofs.Encoding.Locality

/-! # Depth enough

The readers recurse on a depth. Once it exceeds the length of the text, more of it changes nothing
(`depthSuffices`): whatever uses depth up either takes a character or hands the text to the reader of
types, which takes one. So no reading ends for want of depth, and the readers with depth enough
(`typeAt`, `membersAt`, `parametersAt`) satisfy the equations of unbounded recursion. Statements about
whole texts are made about these.
-/

namespace ForeignCall

variable {text rest word : List Char} {depth : Nat}

/-- A reading followed by another depends on the second one only where the first one ends. -/
theorem Reading.andThen_congr {α β : Type} {reading : Reading α} {next next' : α → List Char → Reading β}
    (same : ∀ value, reading.outcome.1 = some value → next value reading.rest = next' value reading.rest) :
    reading.andThen next = reading.andThen next' := by
  unfold andThen
  cases found : reading.result with
  | ok value => exact same value (by simp [outcome, found, Except.toOption])
  | error failure => rfl

theorem rest_readQuantity_suffix (quantity : Quantity) (start text : List Char) :
    (readQuantity quantity start text).rest <:+ text :=
  rest_readQuantity quantity start text ▸ List.dropWhile_suffix _

/-- The type of a parameter begins inside the text. -/
theorem suffix_of_readAttributes {next code : Char} {left : List Char} {attributes : Attributes}
    (first : text.dropWhile Text.isAsciiBlank = next :: word)
    (read : readAttributes .none (next :: word) = (attributes, code :: left)) :
    code :: left <:+ text := by
  have unblanked : next :: word <:+ text := first ▸ List.dropWhile_suffix _
  have attributed := readAttributes_suffix .none (next :: word)
  rw [read] at attributed
  exact attributed.trans unblanked

/-- With this depth, readers find what they find with any other that exceeds the length of the text.
The reader of types takes a character before it needs any depth. -/
structure DepthSuffices (depth : Nat) : Prop where
  type : ∀ depth' {named text}, text.length ≤ depth → text.length ≤ depth' →
    readType depth named text = readType depth' named text
  members : ∀ depth' {shape named unclosed text}, text.length < depth → text.length < depth' →
    readMembers depth shape named unclosed text = readMembers depth' shape named unclosed text
  parameters : ∀ depth' {inBlock text}, text.length < depth → text.length < depth' →
    readParameters depth inBlock text = readParameters depth' inBlock text

namespace DepthSuffices

variable {depth' : Nat} {named inBlock : Bool} {shape : Shape} {unclosed : Failure} {code next : Char}

theorem type_succ (deep : DepthSuffices depth) (enough : text.length ≤ depth)
    (enough' : text.length ≤ depth') :
    readType (depth + 1) named (code :: text) = readType (depth' + 1) named (code :: text) := by
  cases opening_cases code with
  | closer closes => rw [readType_closer closes, readType_closer closes]
  | single found alone => rw [alone, alone]
  | bitfield => rw [readType_bitfield, readType_bitfield]
  | array =>
    rw [readType_array, readType_array]
    refine Reading.andThen_congr fun count _ => ?_
    have within := (rest_readQuantity_suffix .arrayLength ('[' :: text) text).length_le
    rw [deep.type depth' (by omega) (by omega)]
  | aggregate shape =>
    rw [readType_aggregate, readType_aggregate]
    refine Reading.andThen_congr fun name found => ?_
    have fewer : (readAggregateName shape (shape.opening :: text) text).rest.length < text.length :=
      length_of_readAggregateName (Prod.ext found rfl)
    unfold readBody
    rw [deep.members depth' (by omega) (by omega)]
  | wrapper wrapper =>
    rw [readType_wrapper, readType_wrapper, deep.type depth' enough enough']
  | object =>
    cases objectText_cases named text with
    | signature inner =>
      simp only [List.length_cons] at enough enough'
      rw [readType_signature, readType_signature, deep.parameters depth' (by omega) (by omega)]
    | block unopened => rw [readType_block unopened, readType_block unopened]
    | restricted quotes => rw [readType_restricted quotes, readType_restricted quotes]
    | plain unmarked unquoted =>
      rw [readType_plain unmarked unquoted, readType_plain unmarked unquoted]

theorem typeMembers (deep : DepthSuffices depth) {taken : List Char}
    (within : (readType depth named text).rest <:+ taken) (enough : text.length ≤ depth)
    (enough' : text.length ≤ depth') (fewer : taken.length < depth) (fewer' : taken.length < depth')
    (name : Option String) :
    (readMembers depth shape named unclosed (readType depth named text).rest).map
        (Member.ofType name (readType depth named text).orUnknown :: ·) =
      (readMembers depth' shape named unclosed (readType depth' named text).rest).map
        (Member.ofType name (readType depth' named text).orUnknown :: ·) := by
  have := within.length_le
  rw [deep.members depth' (by omega) (by omega), deep.type depth' enough enough']

theorem members_succ (deep : DepthSuffices depth) (enough : text.length < depth)
    (enough' : text.length < depth') :
    readMembers (depth + 1) shape named unclosed (next :: text) =
      readMembers (depth' + 1) shape named unclosed (next :: text) := by
  cases memberStart_cases shape next with
  | closing => rw [readMembers_closing, readMembers_closing]
  | quote =>
    rw [readMembers_quote, readMembers_quote]
    refine Reading.andThen_congr fun name _ => ?_
    have := (rest_readQuoted_suffix ('"' :: text) text).length_le
    exact deep.typeMembers ((stays depth).type named _) (by omega) (by omega) (by omega) (by omega) _
  | stray other closes =>
    rw [readMembers_stray other closes, readMembers_stray other closes,
      deep.members depth' enough enough']
  | type unquoted opens =>
    rw [readMembers_type unquoted opens, readMembers_type unquoted opens]
    exact deep.typeMembers (rest_readType_cons (Nat.zero_lt_of_lt enough) named text opens) enough
      enough' enough enough' none

theorem parameters_succ (deep : DepthSuffices depth) (enough : text.length < depth + 1)
    (enough' : text.length < depth' + 1) :
    readParameters (depth + 1) inBlock text = readParameters (depth' + 1) inBlock text := by
  cases parameterText_cases inBlock text with
  | blank blank => rw [readParameters_blank blank, readParameters_blank blank]
  | closing isBlock first =>
    subst isBlock
    rw [readParameters_end first, readParameters_end first]
  | untyped first inside read =>
    rw [readParameters_untyped first inside read, readParameters_untyped first inside read]
  | @typed next code word left attributes first inside read =>
    have shorter := (suffix_of_readAttributes first read).length_le
    simp only [List.length_cons] at shorter
    cases closes : isCloser code with
    | true =>
      have := (skipOffset_suffix left).length_le
      rw [readParameters_stray first inside read closes, readParameters_stray first inside read closes,
        deep.parameters depth' (by omega) (by omega)]
    | false =>
      have positive : 0 < depth := by omega
      have within := (skipOffset_suffix _).trans (rest_readType_cons positive false left closes)
      have := within.length_le
      rw [readParameters_type first inside read closes, readParameters_type first inside read closes,
        deep.parameters depth' (by omega) (by omega), deep.type depth' (by simp; omega) (by simp; omega)]

end DepthSuffices

theorem depthSuffices (depth : Nat) : DepthSuffices depth := by
  induction depth with
  | zero =>
    refine ⟨fun depth' {named text} enough _ => ?_, fun depth' {shape named unclosed text} enough _ => ?_,
      fun depth' {inBlock text} enough _ => ?_⟩
    · obtain rfl := List.length_eq_zero_iff.mp (Nat.le_zero.mp enough)
      cases depth' <;> rfl
    · exact absurd enough (Nat.not_lt_zero _)
    · exact absurd enough (Nat.not_lt_zero _)
  | succ depth ih =>
    refine ⟨fun depth' {named text} enough enough' => ?_,
      fun depth' {shape named unclosed text} enough enough' => ?_,
      fun depth' {inBlock text} enough enough' => ?_⟩
    · cases text with
      | nil => cases depth' <;> rfl
      | cons code text =>
        obtain ⟨depth', rfl⟩ := Nat.exists_eq_add_one.mpr (Nat.zero_lt_of_lt enough')
        exact ih.type_succ (Nat.le_of_succ_le_succ enough) (Nat.le_of_succ_le_succ enough')
    · obtain ⟨depth', rfl⟩ := Nat.exists_eq_add_one.mpr (Nat.zero_lt_of_lt enough')
      cases text with
      | nil => rfl
      | cons next text =>
        exact ih.members_succ (Nat.lt_of_succ_lt_succ enough) (Nat.lt_of_succ_lt_succ enough')
    · obtain ⟨depth', rfl⟩ := Nat.exists_eq_add_one.mpr (Nat.zero_lt_of_lt enough')
      exact ih.parameters_succ enough enough'

/-! ## Readers with depth enough -/

/-- The type at the start of a text, read with depth enough. -/
def typeAt (named : Bool) (text : List Char) : Reading CType := readType (text.length + 1) named text

def membersAt (shape : Shape) (named : Bool) (unclosed : Failure) (text : List Char) :
    Reading (List Member) :=
  readMembers (text.length + 1) shape named unclosed text

def parametersAt (inBlock : Bool) (text : List Char) : Reading (List Parameter) :=
  readParameters (text.length + 1) inBlock text

theorem readType_eq (named : Bool) (enough : text.length ≤ depth) :
    readType depth named text = typeAt named text :=
  (depthSuffices depth).type _ enough (Nat.le_succ _)

theorem readMembers_eq (shape : Shape) (named : Bool) (unclosed : Failure) (enough : text.length < depth) :
    readMembers depth shape named unclosed text = membersAt shape named unclosed text :=
  (depthSuffices depth).members _ enough (Nat.lt_succ_self _)

theorem readParameters_eq (inBlock : Bool) (enough : text.length < depth) :
    readParameters depth inBlock text = parametersAt inBlock text :=
  (depthSuffices depth).parameters _ enough (Nat.lt_succ_self _)

variable {named inBlock : Bool} {shape : Shape} {unclosed : Failure} {code next : Char}

theorem rest_typeAt (named : Bool) (text : List Char) : (typeAt named text).rest <:+ text :=
  (stays _).type named text

theorem rest_typeAt_cons (named : Bool) (text : List Char) (opens : isCloser code = false) :
    (typeAt named (code :: text)).rest <:+ text :=
  rest_readType_cons (Nat.succ_pos _) named text opens

theorem typeAt_wrapper (named : Bool) (wrapper : Wrapper) (text : List Char) :
    typeAt named (wrapper.code :: text) =
      .found (.wrapped wrapper (typeAt named text).orUnknown) (typeAt named text).rest := by
  rw [typeAt, List.length_cons, readType_wrapper]
  rfl

theorem typeAt_array (named : Bool) (text : List Char) :
    typeAt named ('[' :: text) =
      (readQuantity .arrayLength ('[' :: text) text).andThen fun count rest =>
        closeArray count (typeAt false rest) := by
  rw [typeAt, readType_array]
  refine Reading.andThen_congr fun count _ => ?_
  have within := (rest_readQuantity_suffix .arrayLength ('[' :: text) text).length_le
  rw [readType_eq _ (by simp; omega)]

theorem typeAt_aggregate (named : Bool) (shape : Shape) (text : List Char) :
    typeAt named (shape.opening :: text) =
      (readAggregateName shape (shape.opening :: text) text).andThen fun name rest =>
        if name.2 then
          (membersAt shape (rest.head? = some '"')
              ⟨.unterminatedAggregate shape name.1, shape.opening :: text⟩ rest).map
            (.aggregate shape (CType.normalizeName (some name.1)))
        else .found (.forward shape (CType.normalizeName (some name.1))) rest := by
  rw [typeAt, readType_aggregate]
  refine Reading.andThen_congr fun name _ => ?_
  have within := (rest_readAggregateName_suffix shape (shape.opening :: text) text).length_le
  rw [readBody, readMembers_eq _ _ _ (by simp; omega)]

theorem typeAt_signature (named : Bool) (text : List Char) :
    typeAt named ('@' :: '?' :: '<' :: text) = (parametersAt true text).andThen (blockOf text) := by
  rw [typeAt, readType_signature, readParameters_eq _ (by simp; omega)]

theorem membersAt_nil : membersAt shape named unclosed [] = ⟨.error unclosed, []⟩ := rfl

theorem membersAt_closing : membersAt shape named unclosed (shape.closing :: rest) = .found [] rest :=
  readMembers_closing

/-- A member whose name stands in quotes before it. -/
theorem membersAt_named (unquoted : '"' ∉ word) :
    membersAt shape named unclosed ('"' :: (word ++ '"' :: rest)) =
      (membersAt shape named unclosed (typeAt named rest).rest).map
        (Member.ofType (memberName word) (typeAt named rest).orUnknown :: ·) := by
  have within := (rest_typeAt named rest).length_le
  rw [membersAt, readMembers_quote, readQuoted_name unquoted]
  simp only [Reading.andThen, Reading.found]
  rw [readType_eq named (by simp; omega), readMembers_eq shape named unclosed (by simp; omega)]

/-- A name that is not closed takes all of the text. -/
theorem membersAt_openName (unquoted : '"' ∉ rest) :
    membersAt shape named unclosed ('"' :: rest) = .failed .unterminatedName ('"' :: rest) [] := by
  have open' : ∀ c ∈ rest, decide (c ≠ '"') = true := fun c present => by
    rw [decide_eq_true_eq]
    rintro rfl
    exact unquoted present
  have dropped : rest.dropWhile (· ≠ '"') = [] := List.dropWhile_eq_nil_iff.mpr open'
  rw [membersAt, readMembers_quote, readQuoted, dropped]
  rfl

theorem membersAt_stray (other : next ≠ shape.closing) (closes : isCloser next = true) :
    membersAt shape named unclosed (next :: rest) =
      (membersAt shape named unclosed rest).map (Member.ofType none .unknown :: ·) := by
  rw [membersAt, readMembers_stray other closes]
  rfl

theorem membersAt_type (unquoted : next ≠ '"') (opens : isCloser next = false) :
    membersAt shape named unclosed (next :: rest) =
      (membersAt shape named unclosed (typeAt named (next :: rest)).rest).map
        (Member.ofType none (typeAt named (next :: rest)).orUnknown :: ·) := by
  have within := (rest_typeAt_cons named rest opens).length_le
  rw [membersAt, readMembers_type unquoted opens, readType_eq _ (by simp),
    readMembers_eq _ _ _ (by simp; omega)]

theorem parametersAt_blank (blank : text.dropWhile Text.isAsciiBlank = []) :
    parametersAt inBlock text =
      if inBlock then .failed .unterminatedSignature [] [] else .found [] [] :=
  readParameters_blank blank

theorem parametersAt_end (first : text.dropWhile Text.isAsciiBlank = '>' :: rest) :
    parametersAt true text = .found [] rest :=
  readParameters_end first

variable {attributes : Attributes} {left : List Char}

theorem parametersAt_untyped (first : text.dropWhile Text.isAsciiBlank = next :: word)
    (inside : ¬(inBlock = true ∧ next = '>'))
    (read : readAttributes .none (next :: word) = (attributes, [])) :
    parametersAt inBlock text = .failed .attributesWithoutType [] [] :=
  readParameters_untyped first inside read

theorem parametersAt_stray (first : text.dropWhile Text.isAsciiBlank = next :: word)
    (inside : ¬(inBlock = true ∧ next = '>'))
    (read : readAttributes .none (next :: word) = (attributes, code :: left))
    (closes : isCloser code = true) :
    parametersAt inBlock text =
      (parametersAt inBlock (skipOffset left)).map (⟨attributes, .unknown⟩ :: ·) := by
  have shorter : left.length < text.length := (suffix_of_readAttributes first read).length_le
  have within := (skipOffset_suffix left).length_le
  rw [parametersAt, readParameters_stray first inside read closes, readParameters_eq inBlock (by omega)]

theorem parametersAt_type (first : text.dropWhile Text.isAsciiBlank = next :: word)
    (inside : ¬(inBlock = true ∧ next = '>'))
    (read : readAttributes .none (next :: word) = (attributes, code :: left))
    (opens : isCloser code = false) :
    parametersAt inBlock text =
      (parametersAt inBlock (skipOffset (typeAt false (code :: left)).rest)).map
        (⟨attributes, (typeAt false (code :: left)).orUnknown⟩ :: ·) := by
  have shorter : left.length < text.length := (suffix_of_readAttributes first read).length_le
  have within := ((skipOffset_suffix _).trans (rest_typeAt_cons false left opens)).length_le
  rw [parametersAt, readParameters_type first inside read opens, readType_eq false (by simp; omega),
    readParameters_eq inBlock (by omega)]

end ForeignCall
