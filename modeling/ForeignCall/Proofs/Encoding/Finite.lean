import ForeignCall.Proofs.Encoding.Degradation

/-! # Readings are finite

What the readers do without a bound on their depth: a type, members or parameters are read by reading
the texts inside, each in a derivation of its own (`DerivesType`, `DerivesMembers`, `DerivesParameters`). A
derivation is finite. Every text has one, and it gives what the readers with depth enough find
(`derivesType_iff`), so the recursion of the readers ends by itself, whatever the text is.
-/

namespace ForeignCall

mutual

/-- A type is read from the start of a text. -/
inductive DerivesType : Bool → List Char → Reading CType → Prop where
  | none {named : Bool} : DerivesType named [] (.failed .endOfEncoding [] [])
  | closer {named : Bool} {code : Char} {text : List Char} (closes : isCloser code = true) :
    DerivesType named (code :: text) (.failed (.unexpected code) (code :: text) (code :: text))
  | single {named : Bool} {code : Char} {text : List Char} {found : Except Reason CType}
    (alone : ∀ depth named rest, readType (depth + 1) named (code :: rest) =
      ⟨found.mapError (⟨·, code :: rest⟩), rest⟩) :
    DerivesType named (code :: text) ⟨found.mapError (⟨·, code :: text⟩), text⟩
  | bitfield {named : Bool} {text : List Char} :
    DerivesType named ('b' :: text) ((readQuantity .bitfieldWidth ('b' :: text) text).map .bitfield)
  | uncounted {named : Bool} {text rest : List Char} {failure : Failure}
    (refused : readQuantity .arrayLength ('[' :: text) text = ⟨.error failure, rest⟩) :
    DerivesType named ('[' :: text) ⟨.error failure, rest⟩
  | array {named : Bool} {text rest : List Char} {count : Nat} {element : Reading CType}
    (counted : readQuantity .arrayLength ('[' :: text) text = .found count rest)
    (inner : DerivesType false rest element) : DerivesType named ('[' :: text) (closeArray count element)
  | openName {named : Bool} {shape : Shape} {text : List Char}
    (goesOn : ∀ c ∈ text, c ≠ '=' ∧ c ≠ shape.closing) :
    DerivesType named (shape.opening :: text)
      (.failed (.unterminatedAggregate shape (String.ofList text)) (shape.opening :: text) [])
  | forward {named : Bool} {shape : Shape} {name rest : List Char}
    (inside : ∀ c ∈ name, c ≠ '=' ∧ c ≠ shape.closing) :
    DerivesType named (shape.opening :: (name ++ shape.closing :: rest))
      (.found (.forward shape (CType.normalizeName (some (String.ofList name)))) rest)
  | aggregate {named : Bool} {shape : Shape} {name body : List Char} {members : Reading (List Member)}
    (inside : ∀ c ∈ name, c ≠ '=' ∧ c ≠ shape.closing)
    (inner : DerivesMembers shape (body.head? = some '"')
      ⟨.unterminatedAggregate shape (String.ofList name), shape.opening :: (name ++ '=' :: body)⟩
      body members) :
    DerivesType named (shape.opening :: (name ++ '=' :: body))
      (members.map (.aggregate shape (CType.normalizeName (some (String.ofList name)))))
  | wrapper {named : Bool} {wrapper : Wrapper} {text : List Char} {reading : Reading CType}
    (inner : DerivesType named text reading) :
    DerivesType named (wrapper.code :: text) (.found (.wrapped wrapper reading.orUnknown) reading.rest)
  | signature {named : Bool} {text : List Char} {parameters : Reading (List Parameter)}
    (inner : DerivesParameters true text parameters) :
    DerivesType named ('@' :: '?' :: '<' :: text) (parameters.andThen (blockOf text))
  | block {named : Bool} {rest : List Char} (unopened : rest.head? ≠ some '<') :
    DerivesType named ('@' :: '?' :: rest) (.found (.block none) rest)
  | restricted {named : Bool} {text : List Char} (quotes : quotesRestriction named text = true) :
    DerivesType named ('@' :: '"' :: text) ((readQuoted ('"' :: text) text).map objectOfRestriction)
  | plain {named : Bool} {rest : List Char} (unmarked : rest.head? ≠ some '?')
    (unquoted : ∀ inner, rest = '"' :: inner → quotesRestriction named inner = false) :
    DerivesType named ('@' :: rest) (.found .anyObject rest)

inductive DerivesMembers : Shape → Bool → Failure → List Char → Reading (List Member) → Prop where
  | input {shape : Shape} {named : Bool} {unclosed : Failure} :
    DerivesMembers shape named unclosed [] ⟨.error unclosed, []⟩
  | closing {shape : Shape} {named : Bool} {unclosed : Failure} {rest : List Char} :
    DerivesMembers shape named unclosed (shape.closing :: rest) (.found [] rest)
  | openName {shape : Shape} {named : Bool} {unclosed : Failure} {rest : List Char}
    (unquoted : '"' ∉ rest) :
    DerivesMembers shape named unclosed ('"' :: rest) (.failed .unterminatedName ('"' :: rest) [])
  | named {shape : Shape} {named : Bool} {unclosed : Failure} {name rest : List Char}
    {type : Reading CType} {others : Reading (List Member)} (unquoted : '"' ∉ name)
    (inner : DerivesType named rest type) (following : DerivesMembers shape named unclosed type.rest others) :
    DerivesMembers shape named unclosed ('"' :: (name ++ '"' :: rest))
      (others.map (Member.ofType (memberName name) type.orUnknown :: ·))
  | stray {shape : Shape} {named : Bool} {unclosed : Failure} {next : Char} {rest : List Char}
    {others : Reading (List Member)} (other : next ≠ shape.closing) (closes : isCloser next = true)
    (following : DerivesMembers shape named unclosed rest others) :
    DerivesMembers shape named unclosed (next :: rest) (others.map (Member.ofType none .unknown :: ·))
  | type {shape : Shape} {named : Bool} {unclosed : Failure} {next : Char} {rest : List Char}
    {type : Reading CType} {others : Reading (List Member)} (unquoted : next ≠ '"')
    (opens : isCloser next = false) (inner : DerivesType named (next :: rest) type)
    (following : DerivesMembers shape named unclosed type.rest others) :
    DerivesMembers shape named unclosed (next :: rest)
      (others.map (Member.ofType none type.orUnknown :: ·))

inductive DerivesParameters : Bool → List Char → Reading (List Parameter) → Prop where
  | blank {inBlock : Bool} {text : List Char} (blank : text.dropWhile Text.isAsciiBlank = []) :
    DerivesParameters inBlock text (if inBlock then .failed .unterminatedSignature [] [] else .found [] [])
  | closing {text rest : List Char} (first : text.dropWhile Text.isAsciiBlank = '>' :: rest) :
    DerivesParameters true text (.found [] rest)
  | untyped {inBlock : Bool} {text word : List Char} {next : Char} {attributes : Attributes}
    (first : text.dropWhile Text.isAsciiBlank = next :: word)
    (inside : ¬(inBlock = true ∧ next = '>'))
    (read : readAttributes .none (next :: word) = (attributes, [])) :
    DerivesParameters inBlock text (.failed .attributesWithoutType [] [])
  | stray {inBlock : Bool} {text word left : List Char} {next code : Char} {attributes : Attributes}
    {others : Reading (List Parameter)} (first : text.dropWhile Text.isAsciiBlank = next :: word)
    (inside : ¬(inBlock = true ∧ next = '>'))
    (read : readAttributes .none (next :: word) = (attributes, code :: left))
    (closes : isCloser code = true) (following : DerivesParameters inBlock (skipOffset left) others) :
    DerivesParameters inBlock text (others.map (⟨attributes, .unknown⟩ :: ·))
  | type {inBlock : Bool} {text word left : List Char} {next code : Char} {attributes : Attributes}
    {type : Reading CType} {others : Reading (List Parameter)}
    (first : text.dropWhile Text.isAsciiBlank = next :: word)
    (inside : ¬(inBlock = true ∧ next = '>'))
    (read : readAttributes .none (next :: word) = (attributes, code :: left))
    (opens : isCloser code = false) (inner : DerivesType false (code :: left) type)
    (following : DerivesParameters inBlock (skipOffset type.rest) others) :
    DerivesParameters inBlock text (others.map (⟨attributes, type.orUnknown⟩ :: ·))

end

/-! ## What is derived is what is read -/

mutual

theorem typeAt_eq_of_derives : ∀ {named : Bool} {text : List Char} {reading : Reading CType},
    DerivesType named text reading → typeAt named text = reading
  | _, _, _, .none => rfl
  | _, _, _, .closer closes => readType_closer closes
  | _, _, _, .single alone => alone _ _ _
  | _, _, _, .bitfield => readType_bitfield _ _ _
  | _, _, _, .uncounted refused => by rw [typeAt_array, refused]; rfl
  | _, _, _, .array counted inner => by
    rw [typeAt_array, counted, ← typeAt_eq_of_derives inner]
    rfl
  | _, _, _, .openName goesOn => typeAt_openName goesOn
  | _, _, _, .forward inside => typeAt_forward inside
  | _, _, _, .aggregate inside inner => by rw [typeAt_body inside, membersAt_eq_of_derives inner]
  | _, _, _, .wrapper inner => by rw [typeAt_wrapper, typeAt_eq_of_derives inner]
  | _, _, _, .signature inner => by rw [typeAt_signature, parametersAt_eq_of_derives inner]
  | _, _, _, .block unopened => readType_block unopened
  | _, _, _, .restricted quotes => readType_restricted quotes
  | _, _, _, .plain unmarked unquoted => readType_plain unmarked unquoted

theorem membersAt_eq_of_derives : ∀ {shape : Shape} {named : Bool} {unclosed : Failure}
    {text : List Char} {reading : Reading (List Member)},
    DerivesMembers shape named unclosed text reading → membersAt shape named unclosed text = reading
  | _, _, _, _, _, .input => rfl
  | _, _, _, _, _, .closing => membersAt_closing
  | _, _, _, _, _, .openName unquoted => membersAt_openName unquoted
  | _, _, _, _, _, .named unquoted inner following => by
    rw [membersAt_named unquoted, typeAt_eq_of_derives inner, membersAt_eq_of_derives following]
  | _, _, _, _, _, .stray other closes following => by
    rw [membersAt_stray other closes, membersAt_eq_of_derives following]
  | _, _, _, _, _, .type unquoted opens inner following => by
    rw [membersAt_type unquoted opens, typeAt_eq_of_derives inner, membersAt_eq_of_derives following]

theorem parametersAt_eq_of_derives : ∀ {inBlock : Bool} {text : List Char}
    {reading : Reading (List Parameter)},
    DerivesParameters inBlock text reading → parametersAt inBlock text = reading
  | _, _, _, .blank blank => parametersAt_blank blank
  | _, _, _, .closing first => parametersAt_end first
  | _, _, _, .untyped first inside read => parametersAt_untyped first inside read
  | _, _, _, .stray first inside read closes following => by
    rw [parametersAt_stray first inside read closes, parametersAt_eq_of_derives following]
  | _, _, _, .type first inside read opens inner following => by
    rw [parametersAt_type first inside read opens, typeAt_eq_of_derives inner,
      parametersAt_eq_of_derives following]

end

/-! ## Every text is read -/

/-- Every text that is short enough is read. -/
structure DerivesBelow (bound : Nat) : Prop where
  type : ∀ named {text : List Char}, text.length < bound → ∃ reading, DerivesType named text reading
  members : ∀ shape named unclosed {text : List Char}, text.length < bound →
    ∃ reading, DerivesMembers shape named unclosed text reading
  parameters : ∀ inBlock {text : List Char}, text.length < bound →
    ∃ reading, DerivesParameters inBlock text reading

namespace DerivesBelow

variable {bound : Nat} {named inBlock : Bool} {shape : Shape} {unclosed : Failure} {code next : Char}
  {text rest : List Char}

theorem type_cons (below : DerivesBelow bound) (named : Bool) (code : Char) (enough : text.length < bound) :
    ∃ reading, DerivesType named (code :: text) reading := by
  cases opening_cases code with
  | closer closes => exact ⟨_, .closer closes⟩
  | single found alone => exact ⟨_, .single alone⟩
  | bitfield => exact ⟨_, .bitfield⟩
  | array =>
    rcases counted : readQuantity .arrayLength ('[' :: text) text with ⟨failure | count, rest⟩
    · exact ⟨_, .uncounted counted⟩
    · have within := rest_readQuantity_suffix .arrayLength ('[' :: text) text
      rw [counted] at within
      obtain ⟨element, inner⟩ := below.type false (Nat.lt_of_le_of_lt within.length_le enough)
      exact ⟨_, .array counted inner⟩
  | aggregate shape =>
    cases aggregateText_cases shape text with
    | openName goesOn => exact ⟨_, .openName goesOn⟩
    | forward inside => exact ⟨_, .forward inside⟩
    | @body name body inside =>
      have shorter : body.length < bound := by simp at enough; omega
      obtain ⟨members, inner⟩ := below.members shape (body.head? = some '"')
        ⟨.unterminatedAggregate shape (String.ofList name), shape.opening :: (name ++ '=' :: body)⟩ shorter
      exact ⟨_, .aggregate inside inner⟩
  | wrapper wrapper =>
    obtain ⟨reading, inner⟩ := below.type named enough
    exact ⟨_, .wrapper inner⟩
  | object =>
    cases objectText_cases named text with
    | signature inner =>
      have shorter : inner.length < bound := by simp at enough; omega
      obtain ⟨parameters, inner⟩ := below.parameters true shorter
      exact ⟨_, .signature inner⟩
    | block unopened => exact ⟨_, .block unopened⟩
    | restricted quotes => exact ⟨_, .restricted quotes⟩
    | plain unmarked unquoted => exact ⟨_, .plain unmarked unquoted⟩

/-- The members after a type are read in what the type leaves. -/
theorem members_after (below : DerivesBelow bound) {type : Reading CType}
    (inner : DerivesType named text type) (within : (typeAt named text).rest <:+ rest)
    (enough : rest.length < bound) : ∃ others, DerivesMembers shape named unclosed type.rest others := by
  rw [typeAt_eq_of_derives inner] at within
  exact below.members shape named unclosed (Nat.lt_of_le_of_lt within.length_le enough)

theorem members_succ (below : DerivesBelow bound) (enough : text.length < bound + 1) :
    ∃ reading, DerivesMembers shape named unclosed text reading := by
  cases text with
  | nil => exact ⟨_, .input⟩
  | cons next text =>
    have enough' : text.length < bound := Nat.lt_of_succ_lt_succ enough
    cases memberStart_cases shape next with
    | closing => exact ⟨_, .closing⟩
    | quote =>
      rcases word_cases (· ≠ '"') text with unclosed | ⟨name, quote, rest, rfl, inside, closes⟩
      · exact ⟨_, .openName fun present => by simpa using unclosed _ present⟩
      obtain rfl : quote = '"' := by simpa using closes
      have shorter : rest.length < bound := by simp at enough'; omega
      obtain ⟨type, inner⟩ := below.type named shorter
      obtain ⟨others, following⟩ := below.members_after inner (rest_typeAt named rest) shorter
      exact ⟨_, .named (fun present => by simpa using inside _ present) inner following⟩
    | stray other closes =>
      obtain ⟨others, following⟩ := below.members shape named unclosed enough'
      exact ⟨_, .stray other closes following⟩
    | type unquoted opens =>
      obtain ⟨type, inner⟩ := below.type_cons named next enough'
      obtain ⟨others, following⟩ := below.members_after inner (rest_typeAt_cons named text opens) enough'
      exact ⟨_, .type unquoted opens inner following⟩

theorem parameters_succ (below : DerivesBelow bound) (enough : text.length < bound + 1) :
    ∃ reading, DerivesParameters inBlock text reading := by
  cases parameterText_cases inBlock text with
  | blank blank => exact ⟨_, .blank blank⟩
  | closing isBlock first =>
    subst isBlock
    exact ⟨_, .closing first⟩
  | untyped first inside read => exact ⟨_, .untyped first inside read⟩
  | @typed next code word left attributes first inside read =>
    have typed := (suffix_of_readAttributes first read).length_le
    have enough' : left.length < bound := by simp at typed; omega
    cases closes : isCloser code with
    | true =>
      obtain ⟨others, following⟩ := below.parameters inBlock
        (Nat.lt_of_le_of_lt (skipOffset_suffix left).length_le enough')
      exact ⟨_, .stray first inside read closes following⟩
    | false =>
      obtain ⟨type, inner⟩ := below.type_cons false code enough'
      have within := (skipOffset_suffix _).trans (rest_typeAt_cons false left closes)
      rw [typeAt_eq_of_derives inner] at within
      obtain ⟨others, following⟩ := below.parameters inBlock (Nat.lt_of_le_of_lt within.length_le enough')
      exact ⟨_, .type first inside read closes inner following⟩

end DerivesBelow

theorem derivesBelow (bound : Nat) : DerivesBelow bound := by
  induction bound with
  | zero =>
    exact ⟨fun _ _ none => absurd none (Nat.not_lt_zero _), fun _ _ _ _ none => absurd none (Nat.not_lt_zero _),
      fun _ _ none => absurd none (Nat.not_lt_zero _)⟩
  | succ bound ih =>
    refine ⟨fun named text enough => ?_, fun shape named unclosed text => ih.members_succ,
      fun inBlock text => ih.parameters_succ⟩
    cases text with
    | nil => exact ⟨_, .none⟩
    | cons code text => exact ih.type_cons named code (Nat.lt_of_succ_lt_succ enough)

variable {named inBlock : Bool} {shape : Shape} {unclosed : Failure} {text : List Char}

theorem derivesType_iff {reading : Reading CType} :
    DerivesType named text reading ↔ reading = typeAt named text := by
  refine ⟨fun derives => (typeAt_eq_of_derives derives).symm, ?_⟩
  rintro rfl
  obtain ⟨reading, derives⟩ := (derivesBelow _).type named (Nat.lt_succ_self text.length)
  rwa [typeAt_eq_of_derives derives]

theorem derivesMembers_iff {reading : Reading (List Member)} :
    DerivesMembers shape named unclosed text reading ↔ reading = membersAt shape named unclosed text := by
  refine ⟨fun derives => (membersAt_eq_of_derives derives).symm, ?_⟩
  rintro rfl
  obtain ⟨reading, derives⟩ := (derivesBelow _).members shape named unclosed (Nat.lt_succ_self text.length)
  rwa [membersAt_eq_of_derives derives]

theorem derivesParameters_iff {reading : Reading (List Parameter)} :
    DerivesParameters inBlock text reading ↔ reading = parametersAt inBlock text := by
  refine ⟨fun derives => (parametersAt_eq_of_derives derives).symm, ?_⟩
  rintro rfl
  obtain ⟨reading, derives⟩ := (derivesBelow _).parameters inBlock (Nat.lt_succ_self text.length)
  rwa [parametersAt_eq_of_derives derives]

end ForeignCall
