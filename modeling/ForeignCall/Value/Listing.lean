import ForeignCall.Text.Quoted
import ForeignCall.Value.Basic

/-! # Listings of values

How a value is shown to a reader: its type, its size and its first bytes.
-/

namespace ForeignCall

/-- A listing shows at most this many bytes. -/
def listedBytes : Nat := 32

def CType.listing (type : CType) : String := "Type(" ++ Text.quote type.encoding ++ ")"

def Value.listing (value : Value) : String :=
  "Value \x7b type: " ++ Text.quote value.encoding ++ ", size: " ++ toString value.size
    ++ ", bytes: " ++ Text.quote (Bytes.hex (value.bytes.take listedBytes)) ++ " \x7d"

def Value.mutableListing (value : Value) : String := "MutableValue(" ++ value.listing ++ ")"

end ForeignCall
