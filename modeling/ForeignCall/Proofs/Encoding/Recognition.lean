import ForeignCall.Encoding.Printer
import ForeignCall.Proofs.Encoding.Steps

/-! # What a reader can find

One step of each reader, turned around: what the first character and the words after it must have
been if a type, a member or a parameter was read. A type inside another is the one that was read
there, or unknown.
-/

namespace ForeignCall

namespace Reading

variable {α β : Type} {reading : Reading α} {value : β}

theorem map_eq_ok {f : α → β} :
    (reading.map f).result = .ok value ↔ ∃ read, reading.result = .ok read ∧ f read = value := by
  rw [map]
  cases reading.result <;> simp [Except.map]

theorem andThen_eq_ok {next : α → List Char → Reading β} :
    (reading.andThen next).result = .ok value ↔
      ∃ read, reading.result = .ok read ∧ (next read reading.rest).result = .ok value := by
  rw [andThen]
  cases reading.result <;> simp

/-- A type other than the unknown one was read. -/
theorem orUnknown_eq_iff {reading : Reading CType} {type : CType} (known : type ≠ .unknown) :
    reading.orUnknown = type ↔ reading.result = .ok type := by
  rw [orUnknown]
  cases reading.result with
  | ok read => simp
  | error failure => simpa using known.symm

end Reading

variable {depth : Nat} {named : Bool} {text : List Char}

/-- What a type is read from: its first character and the text after it. -/
inductive Recognizes (depth : Nat) (named : Bool) : Char → List Char → CType → Prop where
  | void {rest : List Char} : Recognizes depth named 'v' rest .void
  | unknown {rest : List Char} : Recognizes depth named '?' rest .unknown
  | classRef {rest : List Char} : Recognizes depth named '#' rest .classRef
  | signature {rest : List Char} {result : Parameter} {arguments : List Parameter}
    (inside : (readParameters depth true rest).result = .ok (result :: arguments)) :
    Recognizes depth named '@' ('?' :: '<' :: rest) (.block (some ⟨result, arguments⟩))
  | block {rest : List Char} : Recognizes depth named '@' ('?' :: rest) (.block none)
  | restricted {start rest name : List Char} (quoted : (readQuoted start rest).result = .ok name) :
    Recognizes depth named '@' ('"' :: rest) (objectOfRestriction name)
  | object {rest : List Char} (unmarked : rest.head? ≠ some '?') :
    Recognizes depth named '@' rest .anyObject
  | bitfield {start rest : List Char} {width : Nat}
    (digits : (readQuantity .bitfieldWidth start rest).result = .ok width) :
    Recognizes depth named 'b' rest (.bitfield width)
  | array {start rest : List Char} {count : Nat}
    (digits : (readQuantity .arrayLength start rest).result = .ok count) :
    Recognizes depth named '[' rest
      (.array count (readType depth false (readQuantity .arrayLength start rest).rest).orUnknown)
  | forward {shape : Shape} {start rest : List Char} {name : String} {isComplete : Bool}
    (isName : (readAggregateName shape start rest).result = .ok (name, isComplete)) :
    Recognizes depth named shape.opening rest (.forward shape (CType.normalizeName (some name)))
  | aggregate {shape : Shape} {start rest : List Char} {name : String} {isComplete : Bool}
    {unclosed : Failure} {members : List Member}
    (isName : (readAggregateName shape start rest).result = .ok (name, isComplete))
    (inside : (readMembers depth shape ((readAggregateName shape start rest).rest.head? = some '"')
      unclosed (readAggregateName shape start rest).rest).result = .ok members) :
    Recognizes depth named shape.opening rest
      (.aggregate shape (CType.normalizeName (some name)) members)
  | wrapped {wrapper : Wrapper} {rest : List Char} :
    Recognizes depth named wrapper.code rest (.wrapped wrapper (readType depth named rest).orUnknown)
  | scalar {kind : Scalar} {rest : List Char} : Recognizes depth named kind.code rest (.scalar kind)

theorem recognizes_of_readType {type : CType}
    (read : (readType depth named text).result = .ok type) :
    ∃ code rest previous, text = code :: rest ∧ depth = previous + 1 ∧
      Recognizes previous named code rest type := by
  unfold readType at read
  split at read
  next => contradiction
  next => contradiction
  next depth code rest =>
    refine ⟨code, rest, depth, rfl, rfl, ?_⟩
    split at read
    next => contradiction
    next =>
      split at read
      next => cases read; exact .void
      next => cases read; exact .unknown
      next => cases read; exact .classRef
      next =>
        split at read
        next text =>
          obtain ⟨parameters, inside, found⟩ := Reading.andThen_eq_ok.mp read
          cases parameters with
          | nil => contradiction
          | cons result arguments =>
            cases found
            exact .signature inside
        next => cases read; exact .block
        next text =>
          split at read
          next =>
            obtain ⟨name, quoted, rfl⟩ := Reading.map_eq_ok.mp read
            exact .restricted quoted
          next => cases read; exact .object (by simp)
        next notBlock _ =>
          cases read
          refine .object fun marked => ?_
          obtain ⟨after, rfl⟩ := List.head?_eq_some_iff.mp marked
          exact notBlock after rfl
      next =>
        obtain ⟨width, digits, rfl⟩ := Reading.map_eq_ok.mp read
        exact .bitfield digits
      next =>
        obtain ⟨count, digits, found⟩ := Reading.andThen_eq_ok.mp read
        dsimp only at found
        split at found
        next => cases found; exact .array digits
        next => contradiction
      next =>
        split at read
        next shape opens =>
          rw [← Shape.opening_of_ofOpening? opens]
          obtain ⟨⟨name, isComplete⟩, isName, found⟩ := Reading.andThen_eq_ok.mp read
          dsimp only at found
          split at found
          next =>
            obtain ⟨members, inside, rfl⟩ := Reading.map_eq_ok.mp found
            exact .aggregate isName inside
          next => cases found; exact .forward isName
        next wrapper _ isWrapper =>
          rw [← Wrapper.code_of_ofCode? isWrapper]
          cases read
          exact .wrapped
        next kind _ _ isScalar =>
          rw [← Scalar.code_of_ofCode? isScalar]
          cases read
          exact .scalar
        next => contradiction

namespace Recognizes

variable {code : Char} {rest : List Char} {type : CType}

/-- A type is written with the first character that it was read from. -/
theorem head_eq (recognizes : Recognizes depth named code rest type) :
    type.encode.head? = some code := by
  cases recognizes with
  | @signature _ result => cases result; rfl
  | _ => rfl

/-- After `!` stands the type that a vector is made of. -/
theorem eq_vector (recognizes : Recognizes depth named '!' rest type) :
    type = .wrapped .vector (readType depth named rest).orUnknown := by
  generalize same : '!' = code at recognizes
  cases recognizes with
  | @wrapped wrapper => cases wrapper <;> first | rfl | contradiction
  | @scalar kind => cases kind <;> contradiction
  | @forward shape => cases shape <;> contradiction
  | @aggregate shape => cases shape <;> contradiction
  | _ => contradiction

/-- After `@?` stands the signature of a block or nothing that belongs to it. -/
theorem eq_block (recognizes : Recognizes depth named '@' ('?' :: rest) type) :
    ∃ signature, type = .block signature := by
  generalize same : '?' :: rest = text at recognizes
  generalize opens : '@' = code at recognizes
  cases recognizes with
  | signature | block => exact ⟨_, rfl⟩
  | object unmarked =>
    subst same
    exact absurd rfl unmarked
  | restricted => simp at same
  | @wrapped wrapper => cases wrapper <;> contradiction
  | @scalar kind => cases kind <;> contradiction
  | @forward shape => cases shape <;> contradiction
  | @aggregate shape => cases shape <;> contradiction
  | _ => contradiction

/-- An array is read from its length and its element. -/
theorem of_array {count : Nat} {element : CType}
    (recognizes : Recognizes depth named code rest (.array count element)) :
    ∃ start, (readType depth false (readQuantity .arrayLength start rest).rest).orUnknown =
      element := by
  generalize same : CType.array count element = type at recognizes
  cases recognizes with
  | array digits =>
    cases same
    exact ⟨_, rfl⟩
  | _ => contradiction

theorem of_wrapped {wrapper : Wrapper} {inner : CType}
    (recognizes : Recognizes depth named code rest (.wrapped wrapper inner)) :
    (readType depth named rest).orUnknown = inner := by
  generalize same : CType.wrapped wrapper inner = type at recognizes
  cases recognizes with
  | wrapped =>
    cases same
    rfl
  | _ => contradiction

/-- A block with a signature is read from its parameters. -/
theorem of_block {result : Parameter} {arguments : List Parameter}
    (recognizes : Recognizes depth named code rest (.block (some ⟨result, arguments⟩))) :
    ∃ inner, rest = '?' :: '<' :: inner ∧
      (readParameters depth true inner).result = .ok (result :: arguments) := by
  generalize same : CType.block (some ⟨result, arguments⟩) = type at recognizes
  cases recognizes with
  | signature inside =>
    cases same
    exact ⟨_, rfl, inside⟩
  | block => cases same
  | _ => contradiction

/-- An aggregate is read from its name and its members. -/
theorem of_aggregate {shape : Shape} {name : Option String} {members : List Member}
    (recognizes : Recognizes depth named code rest (.aggregate shape name members)) :
    ∃ start unclosed,
      (readMembers depth shape ((readAggregateName shape start rest).rest.head? = some '"')
        unclosed (readAggregateName shape start rest).rest).result = .ok members := by
  generalize same : CType.aggregate shape name members = type at recognizes
  cases recognizes with
  | aggregate isName inside =>
    cases same
    exact ⟨_, _, inside⟩
  | _ => contradiction

end Recognizes

/-- A type inside another is unknown, or written with the first character that it was read from. -/
theorem orUnknown_cases (depth : Nat) (named : Bool) (text : List Char) :
    (readType depth named text).orUnknown = .unknown ∨
      (readType depth named text).orUnknown.encode.head? = text.head? := by
  unfold Reading.orUnknown
  split
  next type read =>
    obtain ⟨code, rest, previous, rfl, _, recognizes⟩ := recognizes_of_readType read
    exact .inr recognizes.head_eq
  next => exact .inl rfl

theorem CType.parsePrefix_eq_ok {text rest : List Char} {type : CType} :
    CType.parsePrefix text = .ok (type, rest) ↔
      readType (text.length + 1) false text = .found type rest := by
  rw [parsePrefix]
  cases text with
  | nil => simp [readType, Reading.found, Reading.failed]
  | cons code text =>
    rcases readType ((code :: text).length + 1) false (code :: text) with ⟨_ | type', left⟩ <;>
      simp [Reading.found]

theorem CType.ofEncoding_iff_parsePrefix {encoding : String} {type : CType} :
    CType.ofEncoding encoding = .ok type ↔
      CType.parsePrefix encoding.toList = .ok (type, []) := by
  rw [ofEncoding, parse]
  rcases parsePrefix encoding.toList with _ | ⟨type', _ | _⟩ <;> simp [Except.bind]

theorem CType.ofEncoding_eq_ok {encoding : String} {type : CType} :
    CType.ofEncoding encoding = .ok type ↔
      readType (encoding.toList.length + 1) false encoding.toList = .found type [] :=
  ofEncoding_iff_parsePrefix.trans parsePrefix_eq_ok

end ForeignCall
