import ForeignCall.Encoding.Parser
import ForeignCall.Encoding.Printer

/-! # Reading words back

The readers of numbers, names, restrictions and attributes undo the writers, whatever text follows,
as long as that text does not begin with a character that would prolong the word.
-/

namespace ForeignCall

variable {text rest start : List Char}

/-- A word is cut off where its class of characters ends. -/
theorem takeWhile_word {p : Char → Bool} {word : List Char} (inside : ∀ c ∈ word, p c = true)
    (stops : ∀ c, rest.head? = some c → p c = false) :
    (word ++ rest).takeWhile p = word ∧ (word ++ rest).dropWhile p = rest := by
  rw [List.takeWhile_append_of_pos inside, List.dropWhile_append_of_pos inside]
  cases rest with
  | nil => simp
  | cons c rest => simp [stops c rfl]

/-! ## Numbers -/

theorem isDigit_of_mem_encodeNat {number : Nat} {c : Char} (present : c ∈ encodeNat number) :
    c.isDigit = true :=
  Nat.isDigit_of_mem_toDigits (by decide) (by decide) present

theorem encodeNat_ne_nil (number : Nat) : encodeNat number ≠ [] := Nat.toDigits_ne_nil

/-- All digits that stand together are read as one number. -/
theorem readQuantity_digits (quantity : Quantity) {digits : List Char} (nonempty : digits ≠ [])
    (areDigits : ∀ c ∈ digits, c.isDigit = true)
    (ends : ∀ c, rest.head? = some c → c.isDigit = false) :
    readQuantity quantity start (digits ++ rest) =
      if Nat.ofDigitChars 10 digits 0 < quantity.limit then .found (Nat.ofDigitChars 10 digits 0) rest
      else .failed (.overflow quantity) start rest := by
  obtain ⟨word, after⟩ := takeWhile_word areDigits ends
  simp [readQuantity, word, after, nonempty]

theorem readQuantity_encodeNat {quantity : Quantity} {number : Nat}
    (representable : number < quantity.limit)
    (ends : ∀ c, rest.head? = some c → c.isDigit = false) :
    readQuantity quantity start (encodeNat number ++ rest) = .found number rest := by
  have value : Nat.ofDigitChars 10 (encodeNat number) 0 = number := Nat.ofDigitChars_ten_toDigits
  rw [readQuantity_digits quantity (encodeNat_ne_nil number) (fun _ => isDigit_of_mem_encodeNat) ends,
    value, if_pos representable]

/-- Of text that does not begin with a sign, the digits are skipped. -/
theorem skipOffset_eq_dropWhile (unsigned : ∀ c, text.head? = some c → c ≠ '+' ∧ c ≠ '-') :
    skipOffset text = text.dropWhile Char.isDigit := by
  cases text with
  | nil => rfl
  | cons sign text =>
    obtain ⟨notPlus, notMinus⟩ := unsigned sign rfl
    cases text with
    | nil => rfl
    | cons digit text => simp [skipOffset, notPlus, notMinus]

/-- Text that begins neither with a sign nor with a digit has no offset to skip. -/
theorem skipOffset_eq_self
    (begins : ∀ c, text.head? = some c → c.isDigit = false ∧ c ≠ '+' ∧ c ≠ '-') :
    skipOffset text = text := by
  rw [skipOffset_eq_dropWhile fun c first => (begins c first).2]
  cases text with
  | nil => rfl
  | cons c text => simp [(begins c rfl).1]

/-! ## Names -/

theorem takeWhile_unquoted {name : List Char} (unquoted : '"' ∉ name) (rest : List Char) :
    (name ++ '"' :: rest).takeWhile (· ≠ '"') = name ∧
      (name ++ '"' :: rest).dropWhile (· ≠ '"') = '"' :: rest := by
  apply takeWhile_word
  · intro c present
    rw [decide_eq_true_eq]
    rintro rfl
    exact unquoted present
  · intro c first
    cases first
    rfl

theorem readQuoted_name {name : List Char} (unquoted : '"' ∉ name) :
    readQuoted start (name ++ '"' :: rest) = .found name rest := by
  obtain ⟨word, after⟩ := takeWhile_unquoted unquoted rest
  simp only [readQuoted, word, after]

/-- A quoted text among named members is a restriction if a name or the end of the aggregate follows,
and the next member's name if a type does. -/
theorem quotesRestriction_word {name : List Char} {next : Char} (unquoted : '"' ∉ name) :
    quotesRestriction true (name ++ '"' :: next :: rest) =
      (decide (next = '"') || decide (next = '}') || decide (next = ')')) := by
  obtain ⟨_, after⟩ := takeWhile_unquoted unquoted (next :: rest)
  simp only [quotesRestriction, after, ↓reduceIte]

theorem readAggregateName_word {shape : Shape} {name : List Char} {next : Char}
    (inside : ∀ c ∈ name, c ≠ '=' ∧ c ≠ shape.closing) (ends : next = '=' ∨ next = shape.closing) :
    readAggregateName shape start (name ++ next :: rest) =
      .found (String.ofList name, decide (next = '=')) rest := by
  have inner : ∀ c ∈ name, (decide (c ≠ '=') && decide (c ≠ shape.closing)) = true := by
    intro c present
    simpa using inside c present
  have stops : ∀ c, (next :: rest).head? = some c →
      (decide (c ≠ '=') && decide (c ≠ shape.closing)) = false := by
    intro c first
    cases first
    rcases ends with rfl | rfl <;> simp
  obtain ⟨word, after⟩ := takeWhile_word inner stops
  simp only [readAggregateName, word, after]

/-! ## Restrictions -/

def Unangled (text : List Char) : Prop := ∀ c ∈ text, ¬(c = '<' ∨ c = '>')

theorem foldr_prependToRuns {word : List Char} (unangled : Unangled word) (text : List Char) :
    (word ++ '>' :: text).foldr prependToRuns [[]] = word :: text.foldr prependToRuns [[]] := by
  induction word with
  | nil => simp [prependToRuns]
  | cons c word ih =>
    have rest := ih fun other present => unangled other (List.mem_cons_of_mem _ present)
    rw [List.cons_append, List.foldr_cons, rest, prependToRuns, if_neg (unangled c (List.mem_cons_self ..))]

/-- The protocols between angle brackets are the runs of other characters. -/
theorem angleRuns_protocols {protocols : List (List Char)}
    (spelled : ∀ protocol ∈ protocols, protocol ≠ [] ∧ Unangled protocol) :
    angleRuns (protocols.flatMap fun protocol => '<' :: (protocol ++ ['>'])) = protocols := by
  induction protocols with
  | nil => rfl
  | cons protocol protocols ih =>
    obtain ⟨nonempty, unangled⟩ := spelled protocol (List.mem_cons_self ..)
    have rest := ih fun other present => spelled other (List.mem_cons_of_mem _ present)
    have kept : (!protocol.isEmpty) = true := by simpa using nonempty
    rw [angleRuns] at rest ⊢
    rw [List.flatMap_cons, List.cons_append, List.append_assoc, List.singleton_append,
      List.foldr_cons, foldr_prependToRuns unangled, prependToRuns, if_pos (.inl rfl),
      List.filter_cons_of_neg (by simp), List.filter_cons, if_pos kept, rest]

theorem objectOfRestriction_word {className : List Char} {protocols : List (List Char)}
    (isClass : ∀ c ∈ className, c ≠ '<')
    (spelled : ∀ protocol ∈ protocols, protocol ≠ [] ∧ Unangled protocol) :
    objectOfRestriction (className ++ protocols.flatMap fun protocol => '<' :: (protocol ++ ['>'])) =
      .object (if className.isEmpty then none else some (String.ofList className))
        (protocols.map String.ofList) := by
  have inside : ∀ c ∈ className, decide (c ≠ '<') = true := by
    intro c present
    simpa using isClass c present
  have ends : ∀ c, (protocols.flatMap fun protocol => '<' :: (protocol ++ ['>'])).head? = some c →
      decide (c ≠ '<') = false := by
    intro c first
    cases protocols with
    | nil => contradiction
    | cons protocol protocols =>
      cases first
      rfl
  obtain ⟨word, after⟩ := takeWhile_word inside ends
  rw [objectOfRestriction, word, after, angleRuns_protocols spelled]

/-! ## Attributes -/

/-- Text that does not begin with the code of an attribute. The codes of a vector of an array do not
count. -/
def LacksAttribute (text : List Char) : Prop :=
  ∀ code rest, text = code :: rest →
    Attribute.ofCode? code = none ∨ code = '!' ∧ rest.head? = some '['

theorem readAttributes_of_lacks (set : Attributes) (lacks : LacksAttribute text) :
    readAttributes set text = (set, text) := by
  cases text with
  | nil => rfl
  | cons code rest =>
    rcases lacks code rest rfl with none | vector
    · simp [readAttributes, none]
    · rw [readAttributes, if_pos vector]

/-- Codes of attributes are read, in any order, as long as the last one is not the `!` of a vector of an
array. -/
theorem readAttributes_codes (flags : List Attribute) (set : Attributes)
    (lacks : LacksAttribute text)
    (apart : flags.getLast? = some .legacy → text.head? ≠ some '[') :
    readAttributes set (flags.map Attribute.code ++ text) =
      (flags.foldl Attributes.insert set, text) := by
  induction flags generalizing set with
  | nil => exact readAttributes_of_lacks set lacks
  | cons flag flags ih =>
    have rest := ih (set.insert flag) fun last => apart (by simp [List.getLast?_cons, last])
    have notVector :
        ¬(flag.code = '!' ∧ (flags.map Attribute.code ++ text).head? = some '[') := by
      rintro ⟨isLegacy, opens⟩
      cases flags with
      | nil =>
        have legacy : flag = .legacy := by cases flag <;> first | rfl | contradiction
        subst legacy
        exact apart rfl opens
      | cons next flags => cases next <;> cases Option.some.inj opens
    rw [List.map_cons, List.cons_append, readAttributes, if_neg notVector, Attribute.ofCode?_code]
    exact rest

end ForeignCall
