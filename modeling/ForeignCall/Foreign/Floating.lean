/-! # Floating-point arithmetic on bits

Sums and products of 64-bit floating-point numbers given by their bits, with the results that the
processor gives for what is not a number: an operand that is not a number is the result, made quiet,
the first one if both are; an operation without a result gives the quiet one with its sign set.
-/

namespace ForeignCall.Floating

def isNaN (bits : UInt64) : Bool := (bits &&& 0x7FFFFFFFFFFFFFFF) > 0x7FF0000000000000

def quiet (bits : UInt64) : UInt64 := bits ||| 0x0008000000000000

/-- The result of an operation without a result. -/
def invalid : UInt64 := 0xFFF8000000000000

def apply (operation : Float → Float → Float) (left right : UInt64) : UInt64 :=
  if isNaN left then quiet left
  else if isNaN right then quiet right
  else
    let result := operation (Float.ofBits left) (Float.ofBits right)
    if result.isNaN then invalid else result.toBits

def add : UInt64 → UInt64 → UInt64 := apply (· + ·)

def mul : UInt64 → UInt64 → UInt64 := apply (· * ·)

/-- A 32-bit number in 64 bits. What is not a number keeps its sign and its leading bits. -/
def widen (bits : UInt32) : UInt64 :=
  if (bits &&& 0x7FFFFFFF) > 0x7F800000 then
    let sign : UInt64 := (bits &&& 0x80000000).toUInt64 <<< 32
    let lead : UInt64 := (bits &&& 0x007FFFFF).toUInt64 <<< 29
    quiet (sign ||| (0x7FF0000000000000 : UInt64) ||| lead)
  else (Float32.ofBits bits).toFloat.toBits

/-- The number nearest to a 64-bit integer. -/
def ofInt (number : Int) : UInt64 := (Int64.ofInt number).toFloat.toBits

def zero : UInt64 := 0

end ForeignCall.Floating
