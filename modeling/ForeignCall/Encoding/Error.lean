import ForeignCall.Arithmetic
import ForeignCall.CType.Basic

/-! # Encoding errors

Why a text is not an encoding. A malformed text has a reason and a byte position; `message` gives
the wording.
-/

namespace ForeignCall

/-- A number that an encoding asks for. -/
inductive Quantity where
  | bitfieldWidth
  | arrayLength
  deriving DecidableEq, Repr

namespace Quantity

/-- How messages name a number. -/
def noun : Quantity → String
  | bitfieldWidth => "bitfield width"
  | arrayLength => "array length"

/-- The numbers that can be represented are smaller than this. -/
def limit : Quantity → Nat
  | bitfieldWidth => UInt32.size
  | arrayLength => addressLimit

end Quantity

/-- Why a text is malformed at a position. -/
inductive Reason where
  | endOfEncoding
  | unexpected (found : Char)
  | unrecognized (code : Char)
  | expected (quantity : Quantity)
  | overflow (quantity : Quantity)
  | unterminatedName
  | unclosedArray
  | unterminatedAggregate (shape : Shape) (name : String)
  | emptyBlockSignature
  | unterminatedSignature
  | attributesWithoutType
  | trailingCharacters
  | expectedComma
  | takesNoValue (code : Char)
  | requiresValue (code : Char)
  | missingPropertyType
  deriving DecidableEq, Repr

def Reason.message : Reason → String
  | endOfEncoding => "unexpected end of encoding"
  | unexpected found => "unexpected '" ++ found.toString ++ "'"
  | unrecognized code => "unrecognized type code '" ++ code.toString ++ "'"
  | expected quantity => "expected " ++ quantity.noun
  | overflow quantity => quantity.noun ++ " overflows"
  | unterminatedName => "unterminated quoted name"
  | unclosedArray => "expected ']' to close array"
  | unterminatedAggregate shape name => "unterminated " ++ shape.keyword ++ " '" ++ name ++ "'"
  | emptyBlockSignature => "empty block signature"
  | unterminatedSignature => "unterminated signature"
  | attributesWithoutType => "argument attributes without a type"
  | trailingCharacters => "trailing characters after type"
  | expectedComma => "expected ',' between attributes"
  | takesNoValue code => "attribute '" ++ code.toString ++ "' takes no value"
  | requiresValue code => "attribute '" ++ code.toString ++ "' requires a value"
  | missingPropertyType => "missing property type"

/-- Why a text is no encoding of a type, a signature or a property. -/
inductive EncodingError where
  | empty
  | malformed (position : Nat) (reason : Reason)
  | duplicateAttribute (code : Char)
  | unknownAttribute (code : Char)
  deriving DecidableEq, Repr

namespace EncodingError

def message : EncodingError → String
  | empty => "empty encoding"
  | malformed position reason =>
    "malformed encoding at byte " ++ toString position ++ ": " ++ reason.message
  | duplicateAttribute code => "duplicate property attribute '" ++ code.toString ++ "'"
  | unknownAttribute code => "unknown property attribute '" ++ code.toString ++ "'"

/-- The error as seen in a text in which the encoding starts at a later byte. An encoding that is
missing there is a property without its type. -/
def shift (distance : Nat) : EncodingError → EncodingError
  | malformed position reason => malformed (position + distance) reason
  | empty => malformed distance .missingPropertyType
  | error => error

end EncodingError

end ForeignCall
