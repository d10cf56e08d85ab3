import ForeignCall.Encoding.Parser
import ForeignCall.Encoding.Printer

/-! # Property descriptions

A property is described by its type and by attributes, some of which carry a value:
`T@"NSString",C,N,V_name`. The parts are separated by commas; the type is read by the type reader,
so commas inside it do no harm. No kind of attribute occurs twice.
-/

namespace ForeignCall

inductive PropertyKind where
  | readOnly
  | copy
  | retain
  | nonatomic
  | getter
  | setter
  | dynamic
  | weak
  | garbageCollected
  | legacyEncoding
  | ivar
  deriving DecidableEq, Repr

namespace PropertyKind

def all : List PropertyKind :=
  [readOnly, copy, retain, nonatomic, getter, setter, dynamic, weak, garbageCollected,
    legacyEncoding, ivar]

/-- The character that stands for a kind. -/
def code : PropertyKind → Char
  | readOnly => 'R'
  | copy => 'C'
  | retain => '&'
  | nonatomic => 'N'
  | getter => 'G'
  | setter => 'S'
  | dynamic => 'D'
  | weak => 'W'
  | garbageCollected => 'P'
  | legacyEncoding => 't'
  | ivar => 'V'

def ofCode? : Char → Option PropertyKind
  | 'R' => some readOnly
  | 'C' => some copy
  | '&' => some retain
  | 'N' => some nonatomic
  | 'G' => some getter
  | 'S' => some setter
  | 'D' => some dynamic
  | 'W' => some weak
  | 'P' => some garbageCollected
  | 't' => some legacyEncoding
  | 'V' => some ivar
  | _ => none

/-- Whether attributes of a kind carry a value. -/
def hasValue : PropertyKind → Bool
  | getter | setter | legacyEncoding | ivar => true
  | _ => false

def name : PropertyKind → String
  | readOnly => "ReadOnly"
  | copy => "Copy"
  | retain => "Retain"
  | nonatomic => "Nonatomic"
  | getter => "Getter"
  | setter => "Setter"
  | dynamic => "Dynamic"
  | weak => "Weak"
  | garbageCollected => "GarbageCollected"
  | legacyEncoding => "LegacyEncoding"
  | ivar => "Ivar"

theorem ofCode?_code (kind : PropertyKind) : ofCode? kind.code = some kind := by
  cases kind <;> rfl

theorem code_of_ofCode? {code : Char} {kind : PropertyKind} (read : ofCode? code = some kind) :
    kind.code = code := by
  unfold ofCode? at read
  split at read <;> simp_all [PropertyKind.code] <;> subst read <;> rfl

end PropertyKind

structure PropertyAttribute where
  kind : PropertyKind
  value : Option String
  deriving DecidableEq, Repr

structure Property where
  type : Option CType := none
  attributes : List PropertyAttribute := []
  deriving DecidableEq

namespace Property

/-- A property of a type, without attributes. -/
def ofType (type : CType) : Property := { type := some type }

def attribute? (property : Property) (kind : PropertyKind) : Option PropertyAttribute :=
  property.attributes.find? (·.kind = kind)

def has (property : Property) (kind : PropertyKind) : Bool := (property.attribute? kind).isSome

def value? (property : Property) (kind : PropertyKind) : Option String :=
  (property.attribute? kind).bind (·.value)

/-- Adds an attribute behind the others; one of the same kind is refused. -/
def add (property : Property) (kind : PropertyKind) (value : Option String) :
    Except EncodingError Property :=
  if property.has kind then .error (.duplicateAttribute kind.code)
  else .ok { property with attributes := property.attributes ++ [⟨kind, value⟩] }

def withFlag (property : Property) (kind : PropertyKind) : Except EncodingError Property :=
  if kind.hasValue then .error (.malformed 0 (.requiresValue kind.code)) else property.add kind none

def withValue (property : Property) (kind : PropertyKind) (value : String) :
    Except EncodingError Property :=
  if kind.hasValue then property.add kind (some value)
  else .error (.malformed 0 (.takesNoValue kind.code))

def isReadOnly (property : Property) : Bool := property.has .readOnly

/-- The ownership of the storage behind a property. Without an attribute that says so, not even an
object is owned. -/
def retention (property : Property) : Retention :=
  if property.has .weak then .weak
  else if property.has .copy || property.has .retain then .strong
  else .unretained

/-! ## Text -/

def encodeAttribute (part : PropertyAttribute) : List Char :=
  part.kind.code :: (part.value.getD "").toList

/-- The canonical text of a property: the type, then the attributes in their order. -/
def encode (property : Property) : List Char :=
  [','].intercalate
    ((property.type.map fun type => 'T' :: type.encode).toList
      ++ property.attributes.map encodeAttribute)

def encoding (property : Property) : String := String.ofList property.encode

/-- The first byte of a character in UTF-8, as the character with that code. -/
def leadByte (c : Char) : Char :=
  let code := c.toNat
  if code < 0x80 then c
  else if code < 0x800 then Char.ofNat (0xC0 + code / 0x40)
  else if code < 0x10000 then Char.ofNat (0xE0 + code / 0x1000)
  else Char.ofNat (0xF0 + code / 0x40000)

/-- Adds the part of a property text that starts at `code`. The result is the text after the part. -/
def readPart (total : List Char) (property : Property) (code : Char) (body : List Char) :
    Except EncodingError (Property × List Char) :=
  let position := textBytes total - textBytes body
  if code = 'T' then
    if property.type.isSome then .error (.duplicateAttribute 'T') else
      match CType.parsePrefix body with
      | .ok (type, rest) => .ok ({ property with type := some type }, rest)
      | .error error => .error (error.shift position)
  else
    match PropertyKind.ofCode? code with
    | none => .error (.unknownAttribute (leadByte code))
    | some kind =>
      let payload := body.takeWhile (· ≠ ',')
      if !kind.hasValue && !payload.isEmpty then
        .error (.malformed position (.takesNoValue kind.code))
      else
        (property.add kind (if kind.hasValue then some (String.ofList payload) else none)).map
          fun property => (property, body.dropWhile (· ≠ ','))

/-- Adds the parts of a property text up to its end. `count` bounds the number of parts. -/
def readParts (total : List Char) (count : Nat) (property : Property) (text : List Char) :
    Except EncodingError Property :=
  match count, text with
  | _, [] => .ok property
  | 0, _ => .ok property
  | count + 1, code :: body =>
    (readPart total property code body).bind fun (property, rest) =>
      match rest with
      | [] => .ok property
      | ',' :: next :: rest => readParts total count property (next :: rest)
      | rest => .error (.malformed (textBytes total - textBytes rest) .expectedComma)

def parse (text : List Char) : Except EncodingError Property :=
  if text.isEmpty then .error .empty else readParts text text.length {} text

def ofEncoding (encoding : String) : Except EncodingError Property := parse encoding.toList

end Property

end ForeignCall
