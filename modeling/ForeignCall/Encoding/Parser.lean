import ForeignCall.Encoding.Error
import ForeignCall.Text.Blank

/-! # Reading encodings

A reader takes a list of characters and gives what it read, or why it failed, together with the text
that is left. A failure carries the text from its place on, so positions are measured only at the
end, and every position is a character boundary by construction.

A failure inside another type does not spread: the inner type becomes unknown, and reading goes on
where the failure left off (`Reading.orUnknown`). A closing bracket that no open type claims is never
read as part of a type; where a member or a parameter is expected, it stands for one of unknown type.

Readers recurse on a number that bounds the remaining depth; `readType` is called with more of it
than the text has characters, and every step that uses it up also reads a character.
-/

namespace ForeignCall

/-- Why reading failed, and the text from there on. -/
structure Failure where
  reason : Reason
  text : List Char

/-- What a reader found, and the text that is left. -/
structure Reading (α : Type) where
  result : Except Failure α
  rest : List Char

namespace Reading

def found {α : Type} (value : α) (rest : List Char) : Reading α := ⟨.ok value, rest⟩

def failed {α : Type} (reason : Reason) (text rest : List Char) : Reading α :=
  ⟨.error ⟨reason, text⟩, rest⟩

def map {α β : Type} (f : α → β) (reading : Reading α) : Reading β :=
  ⟨reading.result.map f, reading.rest⟩

/-- A reading followed by another of the text that it leaves. -/
def andThen {α β : Type} (reading : Reading α) (next : α → List Char → Reading β) : Reading β :=
  match reading.result with
  | .ok value => next value reading.rest
  | .error failure => ⟨.error failure, reading.rest⟩

/-- The type that was read, or the unknown type after a failure. -/
def orUnknown (reading : Reading CType) : CType :=
  match reading.result with
  | .ok type => type
  | .error _ => .unknown

end Reading

/-! ## Words -/

/-- The characters that close a type. -/
def isCloser (c : Char) : Bool := c = ']' || c = '}' || c = ')' || c = '>'

/-- The number written at the start of a text, after the text `start` of the type it belongs to. -/
def readQuantity (quantity : Quantity) (start text : List Char) : Reading Nat :=
  let digits := text.takeWhile Char.isDigit
  let rest := text.dropWhile Char.isDigit
  if digits.isEmpty then .failed (.expected quantity) text text
  else
    let number := Nat.ofDigitChars 10 digits 0
    if number < quantity.limit then .found number rest else .failed (.overflow quantity) start rest

/-- The name up to the next quote, in a text whose opening quote has been read. -/
def readQuoted (start text : List Char) : Reading (List Char) :=
  match text.dropWhile (· ≠ '"') with
  | _ :: rest => .found (text.takeWhile (· ≠ '"')) rest
  | [] => .failed .unterminatedName start []

/-- Runs of characters other than angle brackets, with one character put before them. -/
def prependToRuns (c : Char) (runs : List (List Char)) : List (List Char) :=
  if c = '<' ∨ c = '>' then [] :: runs else
    match runs with
    | run :: runs => (c :: run) :: runs
    | [] => [[c]]

/-- The runs of characters other than angle brackets. -/
def angleRuns (text : List Char) : List (List Char) :=
  (text.foldr prependToRuns [[]]).filter (!·.isEmpty)

/-- The object reference that a quoted restriction describes: a class, then protocols in angle
brackets, either part optional. -/
def objectOfRestriction (text : List Char) : CType :=
  let className := text.takeWhile (· ≠ '<')
  .object (if className.isEmpty then none else some (String.ofList className))
    ((angleRuns (text.dropWhile (· ≠ '<'))).map String.ofList)

/-- Whether the quoted text after an object is its restriction. Among named members it could also be
the name of the next member; it is a restriction if another name, the end of the aggregate or the end
of the text follows, or if it is not closed. The opening quote has been read. -/
def quotesRestriction (named : Bool) (text : List Char) : Bool :=
  if named then
    match text.dropWhile (· ≠ '"') with
    | [] | [_] => true
    | _ :: next :: _ => next = '"' || next = '}' || next = ')'
  else true

/-- The attributes at the start of a text. The codes `![` open a vector. -/
def readAttributes (set : Attributes) : List Char → Attributes × List Char
  | [] => (set, [])
  | code :: rest =>
    if code = '!' ∧ rest.head? = some '[' then (set, code :: rest) else
      match Attribute.ofCode? code with
      | some flag => readAttributes (set.insert flag) rest
      | none => (set, code :: rest)

/-- The text after a frame offset, which may have a sign. -/
def skipOffset : List Char → List Char
  | sign :: digit :: rest =>
    if (sign = '+' ∨ sign = '-') ∧ digit.isDigit then rest.dropWhile Char.isDigit
    else (sign :: digit :: rest).dropWhile Char.isDigit
  | text => text.dropWhile Char.isDigit

/-- The name of a member; an empty name is none. -/
def memberName (name : List Char) : Option String :=
  if name.isEmpty then none else some (String.ofList name)

/-- The name of an aggregate whose opening bracket has been read, and whether members follow. -/
def readAggregateName (shape : Shape) (start text : List Char) : Reading (String × Bool) :=
  let isInner := fun c => c ≠ '=' && c ≠ shape.closing
  let name := String.ofList (text.takeWhile isInner)
  match text.dropWhile isInner with
  | [] => .failed (.unterminatedAggregate shape name) start []
  | next :: rest => .found (name, next = '=') rest

/-- The signature of a list of parameters, of which the first is the result. -/
def Signature.ofParameters? : List Parameter → Option Signature
  | [] => none
  | result :: arguments => some ⟨result, arguments⟩

/-! ## Types -/

mutual

/-- Reads one type. `named` says whether it is a member among named members. -/
def readType (depth : Nat) (named : Bool) (text : List Char) : Reading CType :=
  match depth, text with
  | _, [] => .failed .endOfEncoding [] []
  | 0, text => .failed .endOfEncoding text text
  | depth + 1, code :: rest =>
    if isCloser code then .failed (.unexpected code) text text else
    match code with
    | 'v' => .found .void rest
    | '?' => .found .unknown rest
    | '#' => .found .classRef rest
    | '@' =>
      match rest with
      | '?' :: '<' :: text =>
        (readParameters depth true text).andThen fun parameters rest =>
          match Signature.ofParameters? parameters with
          | some signature => .found (.block (some signature)) rest
          | none => .failed .emptyBlockSignature text rest
      | '?' :: rest => .found (.block none) rest
      | '"' :: text =>
        if quotesRestriction named text then (readQuoted rest text).map objectOfRestriction
        else .found .anyObject rest
      | rest => .found .anyObject rest
    | 'b' => (readQuantity .bitfieldWidth text rest).map .bitfield
    | '[' =>
      (readQuantity .arrayLength text rest).andThen fun count rest =>
        let element := readType depth false rest
        match element.rest with
        | ']' :: rest => .found (.array count element.orUnknown) rest
        | rest => .failed .unclosedArray rest rest
    | code =>
      match Shape.ofOpening? code, Wrapper.ofCode? code, Scalar.ofCode? code with
      | some shape, _, _ =>
        (readAggregateName shape text rest).andThen fun (name, isComplete) rest =>
          if isComplete then
            (readMembers depth shape (rest.head? = some '"')
                ⟨.unterminatedAggregate shape name, text⟩ rest).map
              (.aggregate shape (CType.normalizeName (some name)))
          else .found (.forward shape (CType.normalizeName (some name))) rest
      | none, some wrapper, _ =>
        let inner := readType depth named rest
        .found (.wrapped wrapper inner.orUnknown) inner.rest
      | none, none, some kind => .found (.scalar kind) rest
      | none, none, none => .failed (.unrecognized code) text rest
  termination_by structural depth

/-- Reads the members of an aggregate and its closing bracket. -/
def readMembers (depth : Nat) (shape : Shape) (named : Bool) (unclosed : Failure)
    (text : List Char) : Reading (List Member) :=
  match depth, text with
  | _, [] => ⟨.error unclosed, []⟩
  | 0, text => .failed .endOfEncoding text text
  | depth + 1, next :: rest =>
    if next = shape.closing then .found [] rest
    else if next = '"' then
      (readQuoted text rest).andThen fun name rest =>
        let type := readType depth named rest
        (readMembers depth shape named unclosed type.rest).map
          (Member.ofType (memberName name) type.orUnknown :: ·)
    else if isCloser next then
      (readMembers depth shape named unclosed rest).map (Member.ofType none .unknown :: ·)
    else
      let type := readType depth named text
      (readMembers depth shape named unclosed type.rest).map
        (Member.ofType none type.orUnknown :: ·)
  termination_by structural depth

/-- Reads the parameters of a signature: attributes, type and an offset that is skipped, with blanks
between parameters. The parameters of a block end with `>`, others with the text. -/
def readParameters (depth : Nat) (inBlock : Bool) (text : List Char) : Reading (List Parameter) :=
  match depth, text.dropWhile Text.isAsciiBlank with
  | _, [] => if inBlock then .failed .unterminatedSignature [] [] else .found [] []
  | 0, text => .failed .endOfEncoding text text
  | depth + 1, next :: rest =>
    if inBlock ∧ next = '>' then .found [] rest else
    let (attributes, text) := readAttributes .none (next :: rest)
    match text with
    | [] => .failed .attributesWithoutType [] []
    | code :: rest =>
      if isCloser code then
        (readParameters depth inBlock (skipOffset rest)).map (⟨attributes, .unknown⟩ :: ·)
      else
        let type := readType depth false text
        (readParameters depth inBlock (skipOffset type.rest)).map (⟨attributes, type.orUnknown⟩ :: ·)
  termination_by structural depth

end

/-! ## Whole texts -/

/-- The bytes of a text in UTF-8. -/
def textBytes : List Char → Nat
  | [] => 0
  | c :: text => c.utf8Size + textBytes text

/-- A failure in a text as an error at a byte position. -/
def Failure.toError (failure : Failure) (text : List Char) : EncodingError :=
  .malformed (textBytes text - textBytes failure.text) failure.reason

namespace CType

/-- The type at the start of a text, and the text after it. -/
def parsePrefix (text : List Char) : Except EncodingError (CType × List Char) :=
  if text.isEmpty then .error .empty else
    let reading := readType (text.length + 1) false text
    match reading.result with
    | .ok type => .ok (type, reading.rest)
    | .error failure => .error (failure.toError text)

/-- The type that a text is an encoding of. -/
def parse (text : List Char) : Except EncodingError CType :=
  (parsePrefix text).bind fun (type, rest) =>
    if rest.isEmpty then .ok type
    else .error (.malformed (textBytes text - textBytes rest) .trailingCharacters)

def ofEncoding (encoding : String) : Except EncodingError CType := parse encoding.toList

end CType

namespace Signature

def parse (text : List Char) : Except EncodingError Signature :=
  if (Text.trim text).isEmpty then .error .empty else
    match (readParameters (text.length + 2) false text).result with
    | .ok parameters =>
      match ofParameters? parameters with
      | some signature => .ok signature
      | none => .error .empty
    | .error failure => .error (failure.toError text)

def ofEncoding (encoding : String) : Except EncodingError Signature := parse encoding.toList

end Signature

end ForeignCall
