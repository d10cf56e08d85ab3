import ForeignCall.CType.Spelling

/-! # Value errors

Why a value could not be made, read or written.
-/

namespace ForeignCall

inductive ValueError where
  | sizeMismatch (type : CType) (expected actual : Nat)
  | typeMismatch (actual requested : CType)
  | indexOutOfRange (index count : Nat)
  | noSuchField (name : String)
  | notIndexable (type : CType)
  | unsizedType (type : CType)
  | invalidBitPattern (type : CType)
  | allocationFailed (type : CType)
  deriving DecidableEq

def ValueError.message : ValueError → String
  | sizeMismatch type expected actual =>
    "size mismatch for " ++ type.spelling ++ ": expected " ++ toString expected ++ " bytes, got "
      ++ toString actual
  | typeMismatch actual requested =>
    "type mismatch: slot holds " ++ actual.spelling ++ ", caller used " ++ requested.spelling
  | indexOutOfRange index count =>
    "index " ++ toString index ++ " out of range (" ++ toString count ++ " elements)"
  | noSuchField name => "no field named '" ++ name ++ "'"
  | notIndexable type => type.spelling ++ " is neither an array nor an aggregate"
  | unsizedType type => type.spelling ++ " has no known or representable size"
  | invalidBitPattern type => "stored bytes are not a valid " ++ type.spelling
  | allocationFailed type => "could not allocate storage for " ++ type.spelling

end ForeignCall
