import Mathlib.Data.List.Basic
import ForeignCall.Proofs.Encoding.Extent
import ForeignCall.Proofs.Encoding.Recognition
import ForeignCall.Proofs.Encoding.Words

/-! # What is read does not depend on what is left

A reading that leaves the end of a text comes out the same when that end is cut off
(`Reading.Agrees`). Failures inside a type count as readings here: they leave text too, and reading
goes on from there. What a failure reports is left out, since its text reaches to the end.

A reader looks past what it takes in two ways. Words, and the codes of a block or a vector, go on in
what follows if they can, but then they take it as well. A quote after an object among named members
is judged by the character after the closing quote, and the quoted text may be left as the name of the
next member. Where such members are read to their end, the text of the aggregate itself reaches beyond
that quote (`ShowsName`).
-/

namespace ForeignCall

variable {α β : Type} {text more rest start : List Char}

namespace Reading

/-- What was read, if anything was, and the text that is left. Why reading failed does not show. -/
def outcome (reading : Reading α) : Option α × List Char := (reading.result.toOption, reading.rest)

@[simp]
theorem outcome_found (value : α) (rest : List Char) : (found value rest).outcome = (some value, rest) :=
  rfl

@[simp]
theorem outcome_failed (reason : Reason) (text rest : List Char) :
    (failed reason text rest : Reading α).outcome = (none, rest) := rfl

theorem rest_of_outcome {reading : Reading α} {value : Option α} (same : reading.outcome = (value, rest)) :
    reading.rest = rest := congrArg Prod.snd same

theorem outcome_map (f : α → β) (reading : Reading α) :
    (reading.map f).outcome = (reading.outcome.1.map f, reading.outcome.2) := by
  unfold outcome map
  cases reading.result <;> rfl

theorem outcome_of_map {f : α → β} {reading : Reading α} {mapped : Option β}
    (same : (reading.map f).outcome = (mapped, rest)) :
    ∃ value, reading.outcome = (value, rest) ∧ value.map f = mapped := by
  rw [outcome_map, Prod.mk.injEq] at same
  exact ⟨reading.outcome.1, Prod.ext rfl same.2, same.1⟩

theorem outcome_andThen (reading : Reading α) (next : α → List Char → Reading β) :
    (reading.andThen next).outcome =
      match reading.outcome.1 with
      | some value => (next value reading.rest).outcome
      | none => (none, reading.rest) := by
  unfold outcome andThen
  cases reading.result <;> rfl

theorem andThen_of_outcome {reading : Reading α} {value : α} (found : reading.outcome = (some value, rest))
    (next : α → List Char → Reading β) : reading.andThen next = next value rest := by
  obtain ⟨result, left⟩ := reading
  cases result with
  | ok read => cases found; rfl
  | error failure => cases found

theorem orUnknown_eq (reading : Reading CType) :
    reading.orUnknown = reading.outcome.1.getD .unknown := by
  unfold outcome orUnknown
  cases reading.result <;> rfl

/-- A reading of a long text that leaves unread what a short one lacks comes out as the reading of the
short one. -/
def Agrees (more : List Char) (long short : Reading α) : Prop :=
  ∀ value rest, long.outcome = (value, rest ++ more) → short.outcome = (value, rest)

variable {long short : Reading α}

theorem Agrees.map (f : α → β) (agrees : Agrees more long short) :
    Agrees more (long.map f) (short.map f) := by
  intro mapped rest same
  obtain ⟨value, found, rfl⟩ := outcome_of_map same
  rw [outcome_map, agrees value rest found]

theorem Agrees.andThen {next next' : α → List Char → Reading β} (agrees : Agrees more long short)
    (stays : ∀ value rest, (next value rest).rest <:+ rest)
    (following : ∀ value rest, long.outcome = (some value, rest ++ more) →
      short.outcome = (some value, rest) → Agrees more (next value (rest ++ more)) (next' value rest)) :
    Agrees more (long.andThen next) (short.andThen next') := by
  intro value rest same
  rw [outcome_andThen] at same ⊢
  cases read : long.outcome.1 with
  | none =>
    simp only [read, Prod.mk.injEq] at same
    have failed := agrees none rest (Prod.ext read same.2)
    rw [failed, rest_of_outcome failed, same.1]
  | some between =>
    simp only [read] at same
    have reached : more <:+ long.rest := by
      have left := stays between long.rest
      rw [rest_of_outcome same] at left
      exact (List.suffix_append rest more).trans left
    obtain ⟨left, left_eq⟩ := reached
    have found : long.outcome = (some between, left ++ more) := Prod.ext read left_eq.symm
    have first := agrees (some between) left found
    rw [← left_eq] at same
    rw [first, rest_of_outcome first]
    exact following between left found first value rest same

end Reading

open Reading

/-! ## Words -/

/-- A text cannot be left whole after a part of it. -/
theorem not_append_suffix {c : Char} (left : rest ++ c :: more <:+ more) : False := by
  have := left.length_le
  simp only [List.length_append, List.length_cons] at this
  omega

/-- A word that ends in a text ends there whatever follows; one that does not goes on in what follows. -/
theorem dropWhile_append_cases (p : Char → Bool) (text more : List Char) :
    (∃ c after, text.dropWhile p = c :: after ∧ (text ++ more).dropWhile p = c :: (after ++ more) ∧
      (text ++ more).takeWhile p = text.takeWhile p) ∨
    (text.dropWhile p = [] ∧ (text ++ more).dropWhile p = more.dropWhile p) := by
  cases dropped : text.dropWhile p with
  | nil => exact .inr ⟨rfl, by simp [List.dropWhile_append, dropped]⟩
  | cons c after =>
    have long : (text ++ more).dropWhile p = c :: (after ++ more) := by
      simp [List.dropWhile_append, dropped]
    refine .inl ⟨c, after, rfl, long, ?_⟩
    have wholeLong := List.takeWhile_append_dropWhile (p := p) (l := text ++ more)
    have whole := List.takeWhile_append_dropWhile (p := p) (l := text)
    rw [long, ← List.cons_append, ← List.append_assoc, List.append_cancel_right_eq] at wholeLong
    rw [dropped] at whole
    exact List.append_cancel_right (wholeLong.trans whole.symm)

/-- A word before text that is left unread is all of the word, and its text. -/
theorem dropWhile_of_append {p : Char → Bool} (left : (text ++ more).dropWhile p = rest ++ more) :
    text.dropWhile p = rest ∧ text.takeWhile p = (text ++ more).takeWhile p := by
  have dropped : text.dropWhile p = rest := by
    rcases dropWhile_append_cases p text more with ⟨c, after, short, long, _⟩ | ⟨short, long⟩
    · rw [short]
      rw [long, ← List.cons_append] at left
      exact List.append_cancel_right left
    · have within : rest ++ more <:+ more := by
        rw [← left, long]
        exact List.dropWhile_suffix p
      have length := within.length_le
      rw [List.length_append] at length
      have none : rest = [] := List.length_eq_zero_iff.mp (by omega)
      rw [short, none]
  refine ⟨dropped, ?_⟩
  have wholeLong := List.takeWhile_append_dropWhile (p := p) (l := text ++ more)
  have whole := List.takeWhile_append_dropWhile (p := p) (l := text)
  rw [left, ← List.append_assoc, List.append_cancel_right_eq] at wholeLong
  rw [dropped] at whole
  exact List.append_cancel_right (whole.trans wholeLong.symm)

theorem outcome_readQuantity (quantity : Quantity) (start text : List Char) :
    (readQuantity quantity start text).outcome =
      (if (text.takeWhile Char.isDigit).isEmpty then none
        else if Nat.ofDigitChars 10 (text.takeWhile Char.isDigit) 0 < quantity.limit then
          some (Nat.ofDigitChars 10 (text.takeWhile Char.isDigit) 0)
        else none, text.dropWhile Char.isDigit) := by
  refine Prod.ext ?_ (rest_readQuantity quantity start text)
  unfold readQuantity
  dsimp only
  split
  next => rfl
  next => split <;> rfl

theorem agrees_readQuantity (quantity : Quantity) (start start' text more : List Char) :
    Agrees more (readQuantity quantity start (text ++ more)) (readQuantity quantity start' text) := by
  intro value rest same
  rw [outcome_readQuantity, Prod.mk.injEq] at same
  obtain ⟨dropped, taken⟩ := dropWhile_of_append same.2
  rw [outcome_readQuantity, taken, dropped, same.1]

/-- A word up to a character that ends it, which is read too. -/
def terminated (p : Char → Bool) (text : List Char) : Option (List Char × Char) × List Char :=
  match text.dropWhile p with
  | c :: rest => (some (text.takeWhile p, c), rest)
  | [] => (none, [])

theorem terminated_of_append {p : Char → Bool} {word : Option (List Char × Char)}
    (same : terminated p (text ++ more) = (word, rest ++ more)) : terminated p text = (word, rest) := by
  cases more with
  | nil => simpa using same
  | cons c more =>
    unfold terminated at same ⊢
    rcases dropWhile_append_cases p text (c :: more) with ⟨_, after, short, long, taken⟩ | ⟨_, long⟩
    · simp only [long, taken, Prod.mk.injEq, List.append_cancel_right_eq] at same
      simp only [short, same.1, same.2]
    · exfalso
      rw [long] at same
      split at same
      next next left after =>
        have within : next :: left <:+ c :: more := after ▸ List.dropWhile_suffix p
        rw [Prod.mk.injEq] at same
        exact not_append_suffix (same.2 ▸ suffix_of_cons_suffix within)
      next => simp at same

theorem agrees_of_terminated {p : Char → Bool} {f : List Char × Char → α} {long short : Reading α}
    (long_eq : long.outcome =
      ((terminated p (text ++ more)).1.map f, (terminated p (text ++ more)).2))
    (short_eq : short.outcome = ((terminated p text).1.map f, (terminated p text).2)) :
    Agrees more long short := by
  intro value rest same
  rw [long_eq, Prod.mk.injEq] at same
  rw [short_eq, terminated_of_append (Prod.ext rfl same.2), same.1]

theorem terminated_eq_some {p : Char → Bool} {word : List Char} {c : Char}
    (same : terminated p text = (some (word, c), rest)) :
    text = word ++ c :: rest ∧ (∀ other ∈ word, p other = true) ∧ p c = false := by
  unfold terminated at same
  split at same
  next last left after =>
    cases same
    have whole := List.takeWhile_append_dropWhile (p := p) (l := text)
    have ends := List.head_dropWhile_not p (l := text) (by simp [after])
    simp only [after, List.head_cons] at whole ends
    exact ⟨whole.symm, fun other => List.all_eq_true.mp List.all_takeWhile other, ends⟩
  next => cases same

theorem terminated_eq_none {p : Char → Bool} (same : terminated p text = (none, rest)) : rest = [] := by
  unfold terminated at same
  split at same
  · cases same
  · cases same
    rfl

theorem outcome_readQuoted (start text : List Char) :
    (readQuoted start text).outcome =
      ((terminated (· ≠ '"') text).1.map Prod.fst, (terminated (· ≠ '"') text).2) := by
  unfold readQuoted terminated
  cases text.dropWhile fun c => decide (c ≠ '"') <;> rfl

/-- What is read between quotes, and what after them. -/
theorem readQuoted_eq_some {name : List Char} (same : (readQuoted start text).outcome = (some name, rest)) :
    text = name ++ '"' :: rest ∧ '"' ∉ name := by
  rw [outcome_readQuoted, Prod.mk.injEq, Option.map_eq_some_iff] at same
  obtain ⟨⟨⟨word, c⟩, found, rfl⟩, left⟩ := same
  obtain ⟨whole, inside, ends⟩ := terminated_eq_some (Prod.ext found left)
  simp only [ne_eq, decide_not, Bool.not_eq_eq_eq_not, Bool.not_true, Bool.not_false,
    decide_eq_false_iff_not, decide_eq_true_eq] at inside ends
  subst ends
  exact ⟨whole, fun present => inside _ present rfl⟩

theorem readQuoted_eq_none (same : (readQuoted start text).outcome = (none, rest)) : rest = [] := by
  rw [outcome_readQuoted, Prod.mk.injEq, Option.map_eq_none_iff] at same
  exact terminated_eq_none (Prod.ext same.1 same.2)

theorem agrees_readQuoted (start start' text more : List Char) :
    Agrees more (readQuoted start (text ++ more)) (readQuoted start' text) :=
  agrees_of_terminated (outcome_readQuoted start _) (outcome_readQuoted start' text)

theorem outcome_readAggregateName (shape : Shape) (start text : List Char) :
    (readAggregateName shape start text).outcome =
      ((terminated (fun c => c ≠ '=' && c ≠ shape.closing) text).1.map fun word =>
          (String.ofList word.1, decide (word.2 = '=')),
        (terminated (fun c => c ≠ '=' && c ≠ shape.closing) text).2) := by
  unfold readAggregateName terminated
  dsimp only
  cases text.dropWhile fun c => decide (c ≠ '=') && decide (c ≠ shape.closing) <;> rfl

/-- The name of an aggregate is read with the character after it. -/
theorem length_of_readAggregateName {shape : Shape} {name : String × Bool}
    (same : (readAggregateName shape start text).outcome = (some name, rest)) :
    rest.length < text.length := by
  rw [outcome_readAggregateName, Prod.mk.injEq, Option.map_eq_some_iff] at same
  obtain ⟨⟨⟨word, c⟩, found, _⟩, left⟩ := same
  rw [(terminated_eq_some (Prod.ext found left)).1]
  simp only [List.length_append, List.length_cons]
  omega

theorem agrees_readAggregateName (shape : Shape) (start start' text more : List Char) :
    Agrees more (readAggregateName shape start (text ++ more)) (readAggregateName shape start' text) :=
  agrees_of_terminated (outcome_readAggregateName shape start _)
    (outcome_readAggregateName shape start' text)

theorem skipOffset_of_append (left : skipOffset (text ++ more) = rest ++ more) :
    skipOffset text = rest := by
  match text with
  | [] =>
    have length := (left ▸ skipOffset_suffix ([] ++ more) : rest ++ more <:+ more).length_le
    rw [List.length_append] at length
    have none : rest = [] := List.length_eq_zero_iff.mp (by omega)
    rw [none]
    rfl
  | [sign] =>
    cases more with
    | nil => simpa using left
    | cons digit more =>
      rw [List.singleton_append, skipOffset] at left
      split at left
      next =>
        exact (not_append_suffix (left ▸ List.dropWhile_suffix _)).elim
      next =>
        have word : ([sign] ++ digit :: more).dropWhile Char.isDigit = rest ++ digit :: more := left
        exact (dropWhile_of_append word).1
  | sign :: digit :: text =>
    rw [List.cons_append, List.cons_append, skipOffset] at left
    rw [skipOffset]
    split at left
    next signed =>
      rw [if_pos signed]
      exact (dropWhile_of_append left).1
    next unsigned =>
      rw [if_neg unsigned]
      have word : (sign :: digit :: text ++ more).dropWhile Char.isDigit = rest ++ more := left
      exact (dropWhile_of_append word).1

/-- The mark of a vector is an attribute if the bracket after it is cut off. -/
theorem readAttributes_of_append {set attributes : Attributes} {code : Char} {left : List Char}
    (read : readAttributes set (text ++ more) = (attributes, code :: (left ++ more)))
    (vector : code = '!' → left = [] → more.head? ≠ some '[') :
    readAttributes set text = (attributes, code :: left) := by
  induction text generalizing set with
  | nil =>
    have within := readAttributes_suffix set more
    rw [List.nil_append] at read
    rw [read] at within
    have length := within.length_le
    simp only [List.length_cons, List.length_append] at length
    omega
  | cons c text ih =>
    rw [List.cons_append, readAttributes] at read
    rw [readAttributes]
    split at read
    next isVector =>
      simp only [Prod.mk.injEq, List.cons.injEq, List.append_cancel_right_eq] at read
      obtain ⟨rfl, rfl, rfl⟩ := read
      have opens : text.head? = some '[' := by
        cases text with
        | nil => exact absurd isVector.2 (vector isVector.1 rfl)
        | cons next text => exact isVector.2
      rw [if_pos ⟨isVector.1, opens⟩]
    next notVector =>
      have notVector' : ¬(c = '!' ∧ text.head? = some '[') := by
        rintro ⟨isLegacy, opens⟩
        obtain ⟨after, rfl⟩ := List.head?_eq_some_iff.mp opens
        exact notVector ⟨isLegacy, rfl⟩
      rw [if_neg notVector']
      split at read
      next flag isFlag => exact ih read
      next notFlag =>
        simp only [Prod.mk.injEq, List.cons.injEq, List.append_cancel_right_eq] at read
        obtain ⟨rfl, rfl, rfl⟩ := read
        rfl

/-! ## Restrictions among named members -/

/-- A quote at the start of the text begins a name that is closed and followed by something. -/
def ShowsName (rest : List Char) : Prop :=
  ∀ text, rest = '"' :: text → ∃ name next after, '"' ∉ name ∧ text = name ++ '"' :: next :: after

/-- Whether a quoted text is a restriction shows in the character after it. -/
theorem quotesRestriction_append (named : Bool) (shows : ShowsName ('"' :: text)) (more : List Char) :
    quotesRestriction named (text ++ more) = quotesRestriction named text := by
  cases named with
  | false => rfl
  | true =>
    obtain ⟨name, next, after, unquoted, rfl⟩ := shows text rfl
    rw [List.append_assoc, List.cons_append, List.cons_append, quotesRestriction_word unquoted,
      quotesRestriction_word unquoted]

/-- A restriction that is read before text that is left unread is one without that text. -/
theorem quotesRestriction_of_append {named : Bool} (quotes : quotesRestriction named (text ++ more) = true) :
    quotesRestriction named text = true := by
  cases named with
  | false => rfl
  | true =>
    unfold quotesRestriction at quotes ⊢
    simp only [↓reduceIte] at quotes ⊢
    rcases dropWhile_append_cases (· ≠ '"') text more with ⟨c, after, short, long, _⟩ | ⟨short, _⟩
    · rw [long] at quotes
      rw [short]
      cases after with
      | nil => rfl
      | cons next after => exact quotes
    · rw [short]

/-! ## Types, members and parameters -/

/-- With a depth, every reader finds in a text what it finds in a longer one of which it leaves the
end. For a type among named members, the text that is left must show whether a quote in it begins a
name. -/
structure ReadsLocally (depth : Nat) : Prop where
  type : ∀ {depth' named text more value rest}, (text ++ more).length ≤ depth → text.length ≤ depth' →
    (named = true → more ≠ [] → ShowsName rest) →
    (readType depth named (text ++ more)).outcome = (value, rest ++ more) →
      (readType depth' named text).outcome = (value, rest)
  members : ∀ {depth' shape named unclosed unclosed' text more}, (text ++ more).length < depth →
    text.length < depth' →
      Agrees more (readMembers depth shape named unclosed (text ++ more))
        (readMembers depth' shape named unclosed' text)
  parameters : ∀ {depth' inBlock text more}, (text ++ more).length < depth → text.length < depth' →
    Agrees more (readParameters depth inBlock (text ++ more)) (readParameters depth' inBlock text)

namespace ReadsLocally

variable {depth depth' : Nat} {named inBlock : Bool} {shape : Shape} {unclosed unclosed' : Failure}
  {value : Option CType} {code next : Char} {word : List Char} {attributes : Attributes}

theorem array (locally : ReadsLocally depth) (enough : (text ++ more).length ≤ depth)
    (enough' : text.length ≤ depth') (count : Nat) :
    Agrees more (closeArray count (readType depth false (text ++ more)))
      (closeArray count (readType depth' false text)) := by
  intro value rest same
  unfold closeArray at same ⊢
  split at same
  next left after =>
    simp only [outcome_found, Prod.mk.injEq] at same
    obtain ⟨rfl, rfl⟩ := same
    have element : (readType depth' false text).outcome = (_, ']' :: rest) :=
      locally.type enough enough' (by simp) (Prod.ext rfl after)
    rw [rest_of_outcome element]
    simp [orUnknown_eq, element]
  next other =>
    simp only [outcome_failed, Prod.mk.injEq] at same
    obtain ⟨rfl, same⟩ := same
    have element := locally.type enough enough' (by simp) (Prod.ext rfl same)
    rw [rest_of_outcome element]
    split
    next after =>
      refine absurd same (other (after ++ more))
    next => rfl

theorem outcome_readMembers_nil (depth : Nat) :
    (readMembers depth shape named unclosed []).outcome = (none, []) := by
  cases depth <;> rfl

/-- Members that leave all of a text are members of none. -/
theorem eq_nil_of_readMembers (enough : more.length < depth)
    (left : (readMembers depth shape named unclosed more).rest = rest ++ more) : more = [] := by
  cases more with
  | nil => rfl
  | cons next more =>
    obtain ⟨depth, rfl⟩ : ∃ previous, depth = previous + 1 + 1 := ⟨depth - 2, by simp at enough; omega⟩
    have within := rest_readMembers_cons (Nat.succ_pos depth) shape named unclosed next more
    exact (not_append_suffix (left ▸ within)).elim

/-- Text before others, in which members are read to their end, shows whether a quote at its start
begins a name. -/
theorem showsName_of_readMembers (enough : (text ++ more).length ≤ depth) (nonempty : more ≠ [])
    (left : (readMembers (depth + 1) shape named unclosed (text ++ more)).rest = rest ++ more) :
    ShowsName text := by
  rintro text rfl
  rw [List.cons_append, readMembers_quote] at left
  have memberStays (name rest : List Char) :
      ((readMembers depth shape named unclosed (readType depth named rest).rest).map
        (Member.ofType (memberName name) (readType depth named rest).orUnknown :: ·)).rest <:+ rest :=
    ((stays depth).members ..).trans ((stays depth).type named rest)
  have reached : more <:+ (readQuoted ('"' :: (text ++ more)) (text ++ more)).rest := by
    have within : rest ++ more <:+ _ := left ▸ rest_andThen_suffix memberStays
    exact (List.suffix_append rest more).trans within
  obtain ⟨middle, middle_eq⟩ := reached
  have long : (readQuoted ('"' :: (text ++ more)) (text ++ more)).outcome =
      ((readQuoted ('"' :: (text ++ more)) (text ++ more)).outcome.1, middle ++ more) :=
    Prod.ext rfl middle_eq.symm
  cases quoted : (readQuoted ('"' :: (text ++ more)) (text ++ more)).outcome.1 with
  | none =>
    rw [quoted] at long
    exact absurd (List.append_eq_nil_iff.mp (readQuoted_eq_none long)).2 nonempty
  | some name =>
    rw [quoted] at long
    obtain ⟨rfl, unquoted⟩ := readQuoted_eq_some (agrees_readQuoted _ [] text more _ _ long)
    cases middle with
    | cons next after => exact ⟨name, next, after, unquoted, rfl⟩
    | nil =>
      -- Nothing would be left for the member itself, let alone for the end of the aggregate.
      rw [andThen_of_outcome long, rest_map] at left
      have within : rest ++ more <:+ (readType depth named more).rest :=
        left ▸ (stays depth).members shape named unclosed _
      have whole : (readType depth named more).rest = more :=
        ((stays depth).type named more).eq_of_length_le
          ((List.suffix_append rest more).trans within).length_le
      have fewer : more.length < depth := by
        simp only [List.length_cons, List.length_append] at enough
        omega
      have left' : (readMembers depth shape named unclosed more).rest = rest ++ more := by
        rwa [List.nil_append, whole] at left
      exact absurd (eq_nil_of_readMembers fewer left') nonempty

/-- The members after a type, and the type. -/
theorem typeMembers (locally : ReadsLocally depth) (name : Option String) (text : List Char)
    (within : (readType depth named (text ++ more)).rest <:+ rest ++ more)
    (enough : (text ++ more).length ≤ depth) (enough' : text.length ≤ depth')
    (fewer : (rest ++ more).length < depth) (fewer' : rest.length < depth') :
    Agrees more
      ((readMembers depth shape named unclosed (readType depth named (text ++ more)).rest).map
        (Member.ofType name (readType depth named (text ++ more)).orUnknown :: ·))
      ((readMembers depth' shape named unclosed' (readType depth' named text).rest).map
        (Member.ofType name (readType depth' named text).orUnknown :: ·)) := by
  intro members rest' same
  obtain ⟨others, found, rfl⟩ := outcome_of_map same
  have left := rest_of_outcome found
  have reached : more <:+ (readType depth named (text ++ more)).rest :=
    (left ▸ List.suffix_append rest' more : more <:+ _).trans ((stays depth).members ..)
  obtain ⟨middle, middle_eq⟩ := reached
  have shorter : (middle ++ more).length ≤ (rest ++ more).length := middle_eq ▸ within.length_le
  simp only [List.length_append] at shorter fewer
  have shows : named = true → more ≠ [] → ShowsName middle := by
    intro _ nonempty
    obtain ⟨depth, rfl⟩ := Nat.exists_eq_add_one.mpr (Nat.zero_lt_of_lt fewer)
    rw [← middle_eq] at left
    exact showsName_of_readMembers (by simp; omega) nonempty left
  have type := locally.type enough enough' shows (Prod.ext rfl middle_eq.symm)
  rw [← middle_eq] at found
  have short : (readMembers depth' shape named unclosed' middle).outcome = (others, rest') :=
    locally.members (by simp; omega) (by omega) others rest' found
  rw [outcome_map, orUnknown_eq, rest_of_outcome type, type, short, orUnknown_eq]

theorem members_succ (locally : ReadsLocally depth) (enough : (text ++ more).length < depth + 1)
    (enough' : text.length < depth' + 1) :
    Agrees more (readMembers (depth + 1) shape named unclosed (text ++ more))
      (readMembers (depth' + 1) shape named unclosed' text) := by
  cases text with
  | nil =>
    intro members rest same
    obtain rfl := eq_nil_of_readMembers enough (rest_of_outcome same)
    rwa [List.nil_append, List.append_nil, outcome_readMembers_nil] at same
  | cons next text =>
    simp only [List.cons_append, List.length_cons, Nat.add_lt_add_iff_right] at enough enough'
    rw [List.cons_append]
    cases memberStart_cases shape next with
    | closing =>
      rw [readMembers_closing, readMembers_closing]
      intro members rest same
      simpa using same
    | quote =>
      rw [readMembers_quote, readMembers_quote]
      refine (agrees_readQuoted _ _ text more).andThen ?_ ?_
      · intro name rest
        exact ((stays depth).members ..).trans ((stays depth).type named rest)
      · intro name rest long short
        have within : rest ++ more <:+ text ++ more :=
          rest_of_outcome long ▸ rest_readQuoted_suffix _ (text ++ more)
        have within' : rest <:+ text := rest_of_outcome short ▸ rest_readQuoted_suffix _ text
        have := within.length_le
        have := within'.length_le
        exact locally.typeMembers (memberName name) rest ((stays depth).type named _) (by omega) (by omega)
          (by omega) (by omega)
    | stray other closes =>
      rw [readMembers_stray other closes, readMembers_stray other closes]
      exact (locally.members enough enough').map _
    | type unquoted opens =>
      rw [readMembers_type unquoted opens, readMembers_type unquoted opens]
      have positive : 0 < depth := Nat.zero_lt_of_lt enough
      exact locally.typeMembers none (next :: text)
        (rest_readType_cons positive named (text ++ more) opens) enough enough' enough enough'

theorem body (locally : ReadsLocally depth) (enough : (text ++ more).length < depth)
    (enough' : text.length < depth') (start start' : List Char) (name : String) (isComplete : Bool) :
    Agrees more (readBody depth shape start name isComplete (text ++ more))
      (readBody depth' shape start' name isComplete text) := by
  unfold readBody
  cases isComplete with
  | false =>
    intro value rest same
    simpa using same
  | true =>
    simp only [↓reduceIte]
    cases text with
    | nil =>
      intro value rest same
      have left := rest_of_outcome same
      rw [rest_map] at left
      obtain rfl : more = [] := eq_nil_of_readMembers enough left
      rw [List.append_nil, List.append_nil, outcome_map, outcome_readMembers_nil] at same
      rw [outcome_map, outcome_readMembers_nil, ← same]
    | cons next text => exact (locally.members enough enough').map _

/-- An object without marks is one without marks in a longer text of which it leaves the end. -/
theorem readType_plain_append (unmarked : text.head? ≠ some '?')
    (unquoted : ∀ inner, text = '"' :: inner → quotesRestriction named inner = false)
    (left : (readType (depth + 1) named ('@' :: (text ++ more))).rest = rest ++ more) :
    readType (depth + 1) named ('@' :: (text ++ more)) = .found .anyObject (text ++ more) := by
  cases text with
  | nil =>
    rw [List.nil_append] at left ⊢
    cases objectText_cases named more with
    | signature inner =>
      have within := (stays depth).signature named inner
      exact (not_append_suffix (left ▸ within.trans (List.suffix_cons '<' inner))).elim
    | @block after unopened =>
      rw [readType_block unopened] at left
      have within : (found (CType.block none) after).rest <:+ after := List.suffix_rfl
      exact (not_append_suffix (left ▸ within)).elim
    | @restricted inner quotes =>
      rw [readType_restricted quotes, rest_map] at left
      exact (not_append_suffix (left ▸ rest_readQuoted_suffix _ inner)).elim
    | plain unmarked unquoted => exact readType_plain unmarked unquoted
  | cons next text =>
    refine readType_plain unmarked fun inner same => ?_
    obtain ⟨rfl, rfl⟩ := List.cons.inj same
    cases quotes : quotesRestriction named (text ++ more) with
    | false => rfl
    | true =>
      have short := quotesRestriction_of_append quotes
      rw [unquoted text rfl] at short
      contradiction

/-- A quoted text that is a restriction is one in a longer text, if the name it could be taken for shows
in what is left. -/
theorem quotesRestriction_long (quotes : quotesRestriction named text = true)
    (shows : named = true → more ≠ [] → ShowsName rest)
    (left : (readType (depth + 1) named ('@' :: '"' :: (text ++ more))).rest = rest ++ more) :
    quotesRestriction named (text ++ more) = true := by
  cases quotesLong : quotesRestriction named (text ++ more) with
  | true => rfl
  | false =>
    rw [readType_plain (by simp) (by simpa using quotesLong)] at left
    obtain rfl : '"' :: text = rest := List.append_cancel_right left
    rw [← quotesLong]
    cases named with
    | false => rfl
    | true =>
      cases more with
      | nil => rw [List.append_nil, quotes]
      | cons next more =>
        rw [quotesRestriction_append true (shows rfl (List.cons_ne_nil next more)), quotes]

theorem object_succ (locally : ReadsLocally depth) (enough : (text ++ more).length ≤ depth)
    (enough' : text.length ≤ depth') (shows : named = true → more ≠ [] → ShowsName rest)
    (same : (readType (depth + 1) named ('@' :: (text ++ more))).outcome = (value, rest ++ more)) :
    (readType (depth' + 1) named ('@' :: text)).outcome = (value, rest) := by
  have left := rest_of_outcome same
  cases objectText_cases named text with
  | signature inner =>
    simp only [List.cons_append, List.length_cons] at enough enough' same
    rw [readType_signature] at same ⊢
    refine (locally.parameters (by omega) (by omega)).andThen ?_ ?_ value rest same
    · intro parameters after
      unfold blockOf
      split <;> exact List.suffix_rfl
    · intro parameters after _ _ value rest same
      unfold blockOf at same ⊢
      split at same <;> simp_all
  | @block after unopened =>
    by_cases opens : (after ++ more).head? = some '<'
    · -- The text ends between the codes of a block and the bracket that opens its signature.
      obtain rfl : after = [] := by
        cases after with
        | nil => rfl
        | cons next after => exact absurd opens unopened
      obtain ⟨inner, rfl⟩ := List.head?_eq_some_iff.mp opens
      have within := (stays depth).signature named inner
      exact (not_append_suffix (left ▸ within)).elim
    · rw [List.cons_append, readType_block opens, outcome_found, Prod.mk.injEq,
        List.append_cancel_right_eq] at same
      rw [readType_block unopened, outcome_found, same.1, same.2]
  | @restricted inner quotes =>
    rw [List.cons_append, readType_restricted (quotesRestriction_long quotes shows left)] at same
    rw [readType_restricted quotes]
    exact (agrees_readQuoted _ _ inner more).map _ value rest same
  | plain unmarked unquoted =>
    rw [readType_plain_append unmarked unquoted left, outcome_found, Prod.mk.injEq,
      List.append_cancel_right_eq] at same
    rw [readType_plain unmarked unquoted, outcome_found, same.1, same.2]

theorem type_succ (locally : ReadsLocally depth) (enough : (text ++ more).length ≤ depth + 1)
    (enough' : text.length ≤ depth' + 1) (shows : named = true → more ≠ [] → ShowsName rest)
    (same : (readType (depth + 1) named (text ++ more)).outcome = (value, rest ++ more)) :
    (readType (depth' + 1) named text).outcome = (value, rest) := by
  cases text with
  | nil =>
    cases more with
    | nil => rwa [List.append_nil, List.append_nil] at same
    | cons next more =>
      cases closes : isCloser next with
      | false =>
        have within := (stays depth).type_cons named more closes
        exact (not_append_suffix (rest_of_outcome same ▸ within)).elim
      | true =>
        rw [List.nil_append, readType_closer closes, outcome_failed, Prod.mk.injEq] at same
        obtain rfl : rest = [] := List.append_left_eq_self.mp same.2.symm
        exact Prod.ext same.1 rfl
  | cons code text =>
    simp only [List.cons_append, List.length_cons, Nat.add_le_add_iff_right] at enough enough'
    rw [List.cons_append] at same
    cases opening_cases code with
    | closer closes =>
      rw [readType_closer closes, outcome_failed, Prod.mk.injEq, ← List.cons_append,
        List.append_cancel_right_eq] at same
      rw [readType_closer closes, outcome_failed, same.1, same.2]
    | single found alone =>
      rw [alone, outcome, Prod.mk.injEq, List.append_cancel_right_eq] at same
      rw [alone, outcome, ← same.1, same.2]
      cases found <;> rfl
    | bitfield =>
      rw [readType_bitfield] at same ⊢
      exact (agrees_readQuantity _ _ _ text more).map _ value rest same
    | array =>
      rw [readType_array] at same ⊢
      refine (agrees_readQuantity _ _ _ text more).andThen (stays depth).closeArray ?_ value rest same
      intro count after long short
      rw [outcome_readQuantity, Prod.mk.injEq] at long short
      have := (long.2 ▸ List.dropWhile_suffix _ : after ++ more <:+ text ++ more).length_le
      have := (short.2 ▸ List.dropWhile_suffix _ : after <:+ text).length_le
      exact locally.array (by omega) (by omega) count
    | aggregate shape =>
      rw [readType_aggregate] at same ⊢
      refine (agrees_readAggregateName shape _ _ text more).andThen
        (fun name => (stays depth).readBody _ name.1 name.2) ?_ value rest same
      intro name after long short
      have fewer := length_of_readAggregateName long
      have fewer' := length_of_readAggregateName short
      exact locally.body (by omega) (by omega) _ _ name.1 name.2
    | wrapper wrapper =>
      rw [readType_wrapper, outcome_found, Prod.mk.injEq] at same
      have inner := locally.type enough enough' shows (Prod.ext rfl same.2)
      rw [readType_wrapper, outcome_found, orUnknown_eq, inner, rest_of_outcome inner, ← same.1,
        orUnknown_eq]
    | object => exact locally.object_succ enough enough' shows same

/-- The parameters after the offset of one. -/
theorem parametersAfter (locally : ReadsLocally depth) {parameters : Option (List Parameter)}
    (enough : (text ++ more).length < depth) (enough' : text.length < depth')
    (same : (readParameters depth inBlock (skipOffset (text ++ more))).outcome =
      (parameters, rest ++ more)) :
    (readParameters depth' inBlock (skipOffset text)).outcome = (parameters, rest) := by
  have reached : more <:+ skipOffset (text ++ more) :=
    (rest_of_outcome same ▸ List.suffix_append rest more : more <:+ _).trans
      ((stays depth).parameters inBlock _)
  obtain ⟨middle, middle_eq⟩ := reached
  have skipped := skipOffset_of_append middle_eq.symm
  have within := skipOffset_suffix (text ++ more)
  rw [← middle_eq] at same within
  have within' := skipped ▸ skipOffset_suffix text
  have := within.length_le
  have := within'.length_le
  rw [skipped]
  exact locally.parameters (by omega) (by omega) parameters rest same

/-- The parameters after a type, and the type. -/
theorem typeParameters (locally : ReadsLocally depth) (attributes : Attributes)
    (opens : isCloser code = false) (enough : (text ++ more).length < depth)
    (enough' : text.length < depth') :
    Agrees more
      ((readParameters depth inBlock
          (skipOffset (readType depth false (code :: (text ++ more))).rest)).map
        (⟨attributes, (readType depth false (code :: (text ++ more))).orUnknown⟩ :: ·))
      ((readParameters depth' inBlock (skipOffset (readType depth' false (code :: text)).rest)).map
        (⟨attributes, (readType depth' false (code :: text)).orUnknown⟩ :: ·)) := by
  intro parameters rest same
  obtain ⟨others, after, rfl⟩ := outcome_of_map same
  have reached : more <:+ (readType depth false (code :: (text ++ more))).rest :=
    ((rest_of_outcome after ▸ List.suffix_append rest more : more <:+ _).trans
      ((stays depth).parameters inBlock _)).trans (skipOffset_suffix _)
  obtain ⟨middle, middle_eq⟩ := reached
  have type : (readType depth' false (code :: text)).outcome = (_, middle) :=
    locally.type (Nat.succ_le_of_lt enough) (Nat.succ_le_of_lt enough')
      (by simp) (Prod.ext rfl middle_eq.symm)
  have within := rest_readType_cons (Nat.zero_lt_of_lt enough) false (text ++ more) opens
  have within' := rest_readType_cons (Nat.zero_lt_of_lt enough') false text opens
  rw [← middle_eq] at within after
  rw [rest_of_outcome type] at within'
  have := within.length_le
  have := within'.length_le
  have short : (readParameters depth' inBlock (skipOffset middle)).outcome = (others, rest) :=
    locally.parametersAfter (by omega) (by omega) after
  rw [outcome_map, orUnknown_eq, rest_of_outcome type, type, short, orUnknown_eq]
  rfl

/-- A vector in front of the text that is left would take the first character of it. -/
theorem not_vector (enough : (text ++ more).length < depth + 1)
    (first : (text ++ more).dropWhile Text.isAsciiBlank = next :: word)
    (inside : ¬(inBlock = true ∧ next = '>'))
    (read : readAttributes .none (next :: word) = (attributes, '!' :: more))
    (left : (readParameters (depth + 1) inBlock (text ++ more)).rest = rest ++ more) :
    more.head? ≠ some '[' := by
  intro opens
  obtain ⟨inner, rfl⟩ := List.head?_eq_some_iff.mp opens
  have length := (first ▸ List.dropWhile_suffix _ : next :: word <:+ _).length_le
  have attributed := readAttributes_suffix .none (next :: word)
  rw [read] at attributed
  have shorter := attributed.length_le
  simp only [List.length_cons] at length shorter
  obtain ⟨depth, rfl⟩ : ∃ previous, depth = previous + 1 := ⟨depth - 1, by omega⟩
  have type : (readType (depth + 1) false ('!' :: '[' :: inner)).rest <:+ inner :=
    (readType_wrapper depth false .vector ('[' :: inner)) ▸
      rest_readType_cons (by omega) false inner rfl
  rw [readParameters_type first inside read rfl, rest_map] at left
  have within := ((stays (depth + 1)).parameters inBlock _).trans ((skipOffset_suffix _).trans type)
  exact not_append_suffix (left ▸ within)

/-- A parameter, whose first character that is not blank is known, and the parameters after it. -/
theorem parameters_cons (locally : ReadsLocally depth) (enough : (text ++ more).length < depth + 1)
    (enough' : text.length < depth' + 1) (inside : ¬(inBlock = true ∧ next = '>'))
    (first : text.dropWhile Text.isAsciiBlank = next :: word)
    (firstLong : (text ++ more).dropWhile Text.isAsciiBlank = next :: (word ++ more)) :
    Agrees more (readParameters (depth + 1) inBlock (text ++ more))
      (readParameters (depth' + 1) inBlock text) := by
  intro parameters rest same
  have left := rest_of_outcome same
  rcases read : readAttributes .none (next :: (word ++ more)) with ⟨attributes, _ | ⟨code, typed⟩⟩
  · rw [readParameters_untyped firstLong inside read, outcome_failed, Prod.mk.injEq] at same
    obtain ⟨rfl, rfl⟩ := List.append_eq_nil_iff.mp same.2.symm
    rw [List.append_nil] at read
    rw [readParameters_untyped first inside read, outcome_failed, same.1]
  have length := (first ▸ List.dropWhile_suffix _ : next :: word <:+ text).length_le
  have attributed := readAttributes_suffix .none (next :: (word ++ more))
  rw [read] at attributed
  have shorter := attributed.length_le
  have positive : 0 < depth := by
    simp only [List.length_append, List.length_cons] at enough length
    omega
  have within : rest ++ more <:+ typed := left ▸ (stays depth).parameters_cons List.suffix_rfl
    (rest_readType_cons positive false typed) firstLong inside read
  obtain ⟨typed, rfl⟩ := (List.suffix_append rest more).trans within
  have readShort : readAttributes .none (next :: word) = (attributes, code :: typed) := by
    refine readAttributes_of_append read ?_
    rintro rfl rfl
    exact not_vector enough firstLong inside read left
  simp only [List.length_append, List.length_cons] at enough length shorter
  cases closes : isCloser code with
  | true =>
    rw [readParameters_stray firstLong inside read closes] at same
    obtain ⟨others, after, rfl⟩ := outcome_of_map same
    rw [readParameters_stray first inside readShort closes, outcome_map,
      locally.parametersAfter (by simp; omega) (by omega) after]
  | false =>
    rw [readParameters_type firstLong inside read closes] at same
    rw [readParameters_type first inside readShort closes]
    exact locally.typeParameters attributes closes (by simp; omega) (by omega) parameters rest same

/-- Blanks before text of which the end is left are followed by nothing. -/
theorem agrees_blank (enough : (text ++ more).length < depth + 1)
    (blank : text.dropWhile Text.isAsciiBlank = [])
    (blankLong : (text ++ more).dropWhile Text.isAsciiBlank = more.dropWhile Text.isAsciiBlank) :
    Agrees more (readParameters (depth + 1) inBlock (text ++ more))
      (readParameters (depth' + 1) inBlock text) := by
  intro parameters rest same
  have left := rest_of_outcome same
  cases firstLong : more.dropWhile Text.isAsciiBlank with
  | nil =>
    have long := blankLong.trans firstLong
    rw [readParameters_blank long] at same
    rw [readParameters_blank blank]
    have none : rest = [] ∧ more = [] := by
      rw [← List.append_eq_nil_iff, ← rest_of_outcome same]
      split <;> rfl
    rw [same, none.1, none.2, List.append_nil]
  | cons next word =>
    have consumed : next :: word <:+ more := firstLong ▸ List.dropWhile_suffix _
    have length := consumed.length_le
    have positive : 0 < depth := by
      simp only [List.length_append, List.length_cons] at enough length
      omega
    have within : rest ++ more <:+ word :=
      left ▸ rest_readParameters_cons positive (blankLong.trans firstLong)
    have length' := within.length_le
    simp only [List.length_append, List.length_cons] at length length'
    omega

theorem parameters_succ (locally : ReadsLocally depth) (enough : (text ++ more).length < depth + 1)
    (enough' : text.length < depth' + 1) :
    Agrees more (readParameters (depth + 1) inBlock (text ++ more))
      (readParameters (depth' + 1) inBlock text) := by
  rcases dropWhile_append_cases Text.isAsciiBlank text more with
    ⟨next, word, first, firstLong, _⟩ | ⟨blank, blankLong⟩
  · by_cases inside : inBlock = true ∧ next = '>'
    · obtain ⟨rfl, rfl⟩ := inside
      rw [readParameters_end firstLong, readParameters_end first]
      intro parameters rest same
      simpa using same
    · exact locally.parameters_cons enough enough' inside first firstLong
  · exact agrees_blank enough blank blankLong

end ReadsLocally

theorem readsLocally (depth : Nat) : ReadsLocally depth := by
  induction depth with
  | zero =>
    refine ⟨?_, ?_, ?_⟩
    · intro depth' named text more value rest enough _ _ same
      obtain ⟨rfl, rfl⟩ := List.append_eq_nil_iff.mp (List.length_eq_zero_iff.mp (Nat.le_zero.mp enough))
      rw [List.append_nil, List.append_nil] at same
      cases depth' <;> exact same
    · intro depth' shape named unclosed unclosed' text more enough
      exact absurd enough (Nat.not_lt_zero _)
    · intro depth' inBlock text more enough
      exact absurd enough (Nat.not_lt_zero _)
  | succ depth ih =>
    refine ⟨?_, ?_, ?_⟩
    · intro depth' named text more value rest enough enough' shows same
      cases depth' with
      | zero =>
        obtain rfl := List.length_eq_zero_iff.mp (Nat.le_zero.mp enough')
        exact ih.type_succ enough (Nat.zero_le 1) shows same
      | succ depth' => exact ih.type_succ enough enough' shows same
    · intro depth' shape named unclosed unclosed' text more enough enough'
      obtain ⟨depth', rfl⟩ := Nat.exists_eq_add_one.mpr (Nat.zero_lt_of_lt enough')
      exact ih.members_succ enough enough'
    · intro depth' inBlock text more enough enough'
      obtain ⟨depth', rfl⟩ := Nat.exists_eq_add_one.mpr (Nat.zero_lt_of_lt enough')
      exact ih.parameters_succ enough enough'

/-! ## Prefixes -/

/-- The type at the start of a text is the type of exactly the part before what is left, which is
never empty; the text is an encoding if nothing is left. -/
theorem parsePrefix_self_contained (text : String) :
    (∀ type rest, CType.parsePrefix text.toList = .ok (type, rest) →
      ∃ consumed : String, consumed ≠ "" ∧ text = consumed ++ String.ofList rest ∧
        CType.ofEncoding consumed = .ok type) ∧
    ∀ type, CType.ofEncoding text = .ok type ↔ CType.parsePrefix text.toList = .ok (type, []) := by
  refine ⟨fun type rest read => ?_, fun type => CType.ofEncoding_iff_parsePrefix⟩
  have long := CType.parsePrefix_eq_ok.mp read
  obtain ⟨consumed, split⟩ : rest <:+ text.toList := by
    have within := (stays (text.toList.length + 1)).type false text.toList
    rwa [long] at within
  rw [← split] at long
  have short : (readType (consumed.length + 1) false consumed).outcome = (some type, []) :=
    (readsLocally _).type (Nat.le_succ _) (Nat.le_succ _) (by simp) (congrArg outcome long)
  have found : readType (consumed.length + 1) false consumed = .found type [] := by
    rcases reading : readType (consumed.length + 1) false consumed with ⟨result, left⟩
    rw [reading] at short
    cases result <;> cases short
    rfl
  refine ⟨String.ofList consumed, ?_, ?_, ?_⟩
  · rintro empty
    obtain rfl : consumed = [] := by simpa using congrArg String.toList empty
    cases found
  · rw [← String.ofList_append, split, String.ofList_toList]
  · rw [CType.ofEncoding_eq_ok, String.toList_ofList]
    exact found

/-- A bit-field whose width cannot be represented leaves an array of the unknown type. -/
theorem parsePrefix_self_contained_overflow :
    CType.parsePrefix "[2b99999999999]é]".toList = .ok (.array 2 .unknown, ['é', ']']) ∧
      ∃ consumed : String, consumed ≠ "" ∧ "[2b99999999999]é]" = consumed ++ String.ofList ['é', ']'] ∧
        CType.ofEncoding consumed = .ok (.array 2 .unknown) := by
  have read : CType.parsePrefix "[2b99999999999]é]".toList = .ok (.array 2 .unknown, ['é', ']']) := by
    decide +kernel
  exact ⟨read, (parsePrefix_self_contained "[2b99999999999]é]").1 _ _ read⟩

end ForeignCall
