import ForeignCall.Proofs.Encoding.Depth

/-! # Rounds

Members and parameters are read in rounds, each of which goes from one text to a shorter one and finds
one item (`MemberRound`, `ParameterRound`). Where no round starts, the reading ends, with or without a
failure (`MembersEnd`, `ParametersEnd`). What a reader finds in a text is what the rounds find one after
the other, and then what it finds where they end; from every text, some rounds lead to an end.
-/

namespace ForeignCall

theorem Reading.map_map {α β γ : Type} (f : α → β) (g : β → γ) (reading : Reading α) :
    (reading.map f).map g = reading.map (g ∘ f) := by
  unfold map
  cases reading.result <;> rfl

theorem Reading.map_id {α : Type} (reading : Reading α) : reading.map id = reading := by
  rcases reading with ⟨_ | _, _⟩ <;> rfl

/-- A word takes all of a text, or a character ends it. -/
theorem word_cases (p : Char → Bool) (text : List Char) : (∀ c ∈ text, p c = true) ∨
    ∃ word c rest, text = word ++ c :: rest ∧ (∀ d ∈ word, p d = true) ∧ p c = false := by
  rcases ended : terminated p text with ⟨_ | ⟨word, c⟩, rest⟩
  · refine .inl (List.dropWhile_eq_nil_iff.mp ?_)
    unfold terminated at ended
    split at ended
    · cases ended
    · assumption
  · exact .inr ⟨word, c, rest, terminated_eq_some ended⟩

/-- A run of rounds, and the items that they find. -/
inductive Rounds {σ α : Type} (round : σ → α → σ → Prop) : σ → List α → σ → Prop where
  | none {state : σ} : Rounds round state [] state
  | next {start between stop : σ} {item : α} {items : List α} (first : round start item between)
    (others : Rounds round between items stop) : Rounds round start (item :: items) stop

namespace Rounds

variable {σ α : Type} {round : σ → α → σ → Prop} {start stop : σ} {items : List α}

/-- If a round leaves an end of its text, so does a run. -/
theorem suffix (left : σ → List Char) (step : ∀ start item stop, round start item stop →
    left stop <:+ left start) (run : Rounds round start items stop) : left stop <:+ left start := by
  induction run with
  | none => exact List.suffix_rfl
  | next first _ ih => exact ih.trans (step _ _ _ first)

/-- Rounds that make something smaller come to an end. -/
theorem exists_end (round : σ → α → σ → Prop) (size : σ → Nat) {ends : σ → Prop}
    (smaller : ∀ start item stop, round start item stop → size stop < size start)
    (goesOn : ∀ state, ends state ∨ ∃ item stop, round state item stop) (start : σ) :
    ∃ items stop, Rounds round start items stop ∧ ends stop := by
  induction measured : size start using Nat.strong_induction_on generalizing start with
  | _ _ ih =>
    rcases goesOn start with atEnd | ⟨item, between, first⟩
    · exact ⟨[], start, .none, atEnd⟩
    · obtain ⟨items, stop, others, atEnd⟩ := ih _ (measured ▸ smaller _ _ _ first) between rfl
      exact ⟨item :: items, stop, .next first others, atEnd⟩

end Rounds

variable {named inBlock : Bool} {shape : Shape} {unclosed : Failure}
  {start stop text word rest left : List Char} {next code : Char} {attributes : Attributes}

/-! ## Members -/

/-- One round of reading members: a name in quotes with a type, a closing bracket of another kind, which
stands for an unknown type, or a type. -/
inductive MemberRound (shape : Shape) (named : Bool) : List Char → Member → List Char → Prop where
  | named {name rest : List Char} (unquoted : '"' ∉ name) :
    MemberRound shape named ('"' :: (name ++ '"' :: rest))
      (.ofType (memberName name) (typeAt named rest).orUnknown) (typeAt named rest).rest
  | stray {next : Char} {rest : List Char} (other : next ≠ shape.closing)
    (closes : isCloser next = true) :
    MemberRound shape named (next :: rest) (.ofType none .unknown) rest
  | type {next : Char} {rest : List Char} (unquoted : next ≠ '"') (opens : isCloser next = false) :
    MemberRound shape named (next :: rest) (.ofType none (typeAt named (next :: rest)).orUnknown)
      (typeAt named (next :: rest)).rest

/-- Where no further member is read: at the end of the text, at the closing bracket, or at a name that
is not closed. -/
inductive MembersEnd (shape : Shape) : List Char → Prop where
  | input : MembersEnd shape []
  | closing (rest : List Char) : MembersEnd shape (shape.closing :: rest)
  | openName {rest : List Char} (unquoted : '"' ∉ rest) : MembersEnd shape ('"' :: rest)

theorem membersEnd_or_round (shape : Shape) (named : Bool) (text : List Char) :
    MembersEnd shape text ∨ ∃ member stop, MemberRound shape named text member stop := by
  cases text with
  | nil => exact .inl .input
  | cons next text =>
    cases memberStart_cases shape next with
    | closing => exact .inl (.closing text)
    | quote =>
      rcases word_cases (· ≠ '"') text with unclosed | ⟨name, quote, rest, rfl, inside, closes⟩
      · exact .inl (.openName fun present => by simpa using unclosed _ present)
      · obtain rfl : quote = '"' := by simpa using closes
        exact .inr ⟨_, _, .named fun present => by simpa using inside _ present⟩
    | stray other closes => exact .inr ⟨_, _, .stray other closes⟩
    | type unquoted opens => exact .inr ⟨_, _, .type unquoted opens⟩

namespace MemberRound

variable {member : Member} {members : List Member}

theorem membersAt_eq (round : MemberRound shape named start member stop) :
    membersAt shape named unclosed start = (membersAt shape named unclosed stop).map (member :: ·) := by
  cases round with
  | named unquoted => exact membersAt_named unquoted
  | stray other closes => exact membersAt_stray other closes
  | type unquoted opens => exact membersAt_type unquoted opens

/-- A round takes the first character at least. -/
theorem suffix_tail (round : MemberRound shape named start member stop) :
    ∃ next text, start = next :: text ∧ stop <:+ text := by
  cases round with
  | @named name rest _ =>
    refine ⟨_, _, rfl, (rest_typeAt named rest).trans ?_⟩
    exact (List.suffix_cons '"' rest).trans (List.suffix_append name _)
  | stray => exact ⟨_, _, rfl, List.suffix_rfl⟩
  | type _ opens => exact ⟨_, _, rfl, rest_typeAt_cons named _ opens⟩

theorem suffix (round : MemberRound shape named start member stop) : stop <:+ start := by
  obtain ⟨next, text, rfl, within⟩ := round.suffix_tail
  exact within.trans (List.suffix_cons next text)

theorem shorter (round : MemberRound shape named start member stop) : stop.length < start.length := by
  obtain ⟨next, text, rfl, within⟩ := round.suffix_tail
  exact Nat.lt_succ_of_le within.length_le

end MemberRound

theorem membersAt_of_rounds {members : List Member}
    (run : Rounds (MemberRound shape named) start members stop) :
    membersAt shape named unclosed start = (membersAt shape named unclosed stop).map (members ++ ·) := by
  induction run with
  | none => exact (Reading.map_id _).symm
  | next first _ ih => rw [first.membersAt_eq, ih, Reading.map_map]; rfl

theorem suffix_of_memberRounds {members : List Member}
    (run : Rounds (MemberRound shape named) start members stop) : stop <:+ start :=
  run.suffix id fun _ _ _ => MemberRound.suffix

theorem exists_memberRounds (shape : Shape) (named : Bool) (start : List Char) :
    ∃ members stop, Rounds (MemberRound shape named) start members stop ∧ MembersEnd shape stop :=
  Rounds.exists_end (MemberRound shape named) List.length (fun _ _ _ => MemberRound.shorter)
    (membersEnd_or_round shape named) start

/-! ## Parameters -/

/-- One round of reading parameters: blanks and attributes, a closing bracket, which stands for an
unknown type, or a type, and an offset. -/
inductive ParameterRound (inBlock : Bool) : List Char → Parameter → List Char → Prop where
  | stray {text word left : List Char} {next code : Char} {attributes : Attributes}
    (first : text.dropWhile Text.isAsciiBlank = next :: word) (inside : ¬(inBlock = true ∧ next = '>'))
    (read : readAttributes .none (next :: word) = (attributes, code :: left))
    (closes : isCloser code = true) :
    ParameterRound inBlock text ⟨attributes, .unknown⟩ (skipOffset left)
  | type {text word left : List Char} {next code : Char} {attributes : Attributes}
    (first : text.dropWhile Text.isAsciiBlank = next :: word) (inside : ¬(inBlock = true ∧ next = '>'))
    (read : readAttributes .none (next :: word) = (attributes, code :: left))
    (opens : isCloser code = false) :
    ParameterRound inBlock text ⟨attributes, (typeAt false (code :: left)).orUnknown⟩
      (skipOffset (typeAt false (code :: left)).rest)

/-- Where no further parameter is read: before nothing but blanks, at the end of a block, or before
attributes that end with the text. -/
inductive ParametersEnd (inBlock : Bool) (text : List Char) : Prop where
  | blank (blank : text.dropWhile Text.isAsciiBlank = []) : ParametersEnd inBlock text
  | closing {rest : List Char} (isBlock : inBlock = true)
    (first : text.dropWhile Text.isAsciiBlank = '>' :: rest) : ParametersEnd inBlock text
  | untyped {next : Char} {word : List Char} {attributes : Attributes}
    (first : text.dropWhile Text.isAsciiBlank = next :: word)
    (inside : ¬(inBlock = true ∧ next = '>'))
    (read : readAttributes .none (next :: word) = (attributes, [])) : ParametersEnd inBlock text

theorem parametersEnd_or_round (inBlock : Bool) (text : List Char) :
    ParametersEnd inBlock text ∨ ∃ parameter stop, ParameterRound inBlock text parameter stop := by
  cases parameterText_cases inBlock text with
  | blank blank => exact .inl (.blank blank)
  | closing isBlock first => exact .inl (.closing isBlock first)
  | untyped first inside read => exact .inl (.untyped first inside read)
  | @typed _ code _ _ _ first inside read =>
    cases closes : isCloser code with
    | true => exact .inr ⟨_, _, .stray first inside read closes⟩
    | false => exact .inr ⟨_, _, .type first inside read closes⟩

namespace ParameterRound

variable {parameter : Parameter} {parameters : List Parameter}

theorem parametersAt_eq (round : ParameterRound inBlock start parameter stop) :
    parametersAt inBlock start = (parametersAt inBlock stop).map (parameter :: ·) := by
  cases round with
  | stray first inside read closes => exact parametersAt_stray first inside read closes
  | type first inside read opens => exact parametersAt_type first inside read opens

/-- A round leaves an end of the text behind the first character of a type or a stray bracket. -/
theorem suffix_tail (round : ParameterRound inBlock start parameter stop) :
    ∃ code left, code :: left <:+ start ∧ stop <:+ left := by
  cases round with
  | stray first _ read _ => exact ⟨_, _, suffix_of_readAttributes first read, skipOffset_suffix _⟩
  | type first _ read opens =>
    exact ⟨_, _, suffix_of_readAttributes first read,
      (skipOffset_suffix _).trans (rest_typeAt_cons false _ opens)⟩

theorem suffix (round : ParameterRound inBlock start parameter stop) : stop <:+ start := by
  obtain ⟨code, left, typed, within⟩ := round.suffix_tail
  exact within.trans ((List.suffix_cons code left).trans typed)

theorem shorter (round : ParameterRound inBlock start parameter stop) : stop.length < start.length := by
  obtain ⟨code, left, typed, within⟩ := round.suffix_tail
  exact within.length_le.trans_lt typed.length_le

end ParameterRound

theorem parametersAt_of_rounds {parameters : List Parameter}
    (run : Rounds (ParameterRound inBlock) start parameters stop) :
    parametersAt inBlock start = (parametersAt inBlock stop).map (parameters ++ ·) := by
  induction run with
  | none => exact (Reading.map_id _).symm
  | next first _ ih => rw [first.parametersAt_eq, ih, Reading.map_map]; rfl

theorem suffix_of_parameterRounds {parameters : List Parameter}
    (run : Rounds (ParameterRound inBlock) start parameters stop) : stop <:+ start :=
  run.suffix id fun _ _ _ => ParameterRound.suffix

theorem exists_parameterRounds (inBlock : Bool) (start : List Char) :
    ∃ parameters stop, Rounds (ParameterRound inBlock) start parameters stop ∧
      ParametersEnd inBlock stop :=
  Rounds.exists_end (ParameterRound inBlock) List.length (fun _ _ _ => ParameterRound.shorter)
    (parametersEnd_or_round inBlock) start

end ForeignCall
