/-! # Scalar kinds

The scalars of the encoding language: integers, floating-point numbers and three kinds of machine
pointer, each written as one character. The tables below give the code, the size under the 64-bit
System V conventions and the C spelling. `ofCode?_code` says that reading a kind's own code gives
the kind back, and `code_of_ofCode?` that no other character stands for it.
-/

namespace ForeignCall

def pointerSize : Nat := 8

/-- A scalar with a one-character code. -/
inductive Scalar where
  | char
  | unsignedChar
  | bool
  | short
  | unsignedShort
  | int
  | unsignedInt
  | long
  | unsignedLong
  | longLong
  | unsignedLongLong
  | int128
  | unsignedInt128
  | float
  | double
  | longDouble
  | cString
  | selector
  | atom
  deriving DecidableEq, Repr

namespace Scalar

/-- Every kind once, in the order of the code table. -/
def all : List Scalar :=
  [char, unsignedChar, bool, short, unsignedShort, int, unsignedInt, long, unsignedLong, longLong,
    unsignedLongLong, int128, unsignedInt128, float, double, longDouble, cString, selector, atom]

/-- The character that stands for a kind in an encoding. -/
def code : Scalar → Char
  | char => 'c'
  | unsignedChar => 'C'
  | bool => 'B'
  | short => 's'
  | unsignedShort => 'S'
  | int => 'i'
  | unsignedInt => 'I'
  | long => 'l'
  | unsignedLong => 'L'
  | longLong => 'q'
  | unsignedLongLong => 'Q'
  | int128 => 't'
  | unsignedInt128 => 'T'
  | float => 'f'
  | double => 'd'
  | longDouble => 'D'
  | cString => '*'
  | selector => ':'
  | atom => '%'

def ofCode? : Char → Option Scalar
  | 'c' => some char
  | 'C' => some unsignedChar
  | 'B' => some bool
  | 's' => some short
  | 'S' => some unsignedShort
  | 'i' => some int
  | 'I' => some unsignedInt
  | 'l' => some long
  | 'L' => some unsignedLong
  | 'q' => some longLong
  | 'Q' => some unsignedLongLong
  | 't' => some int128
  | 'T' => some unsignedInt128
  | 'f' => some float
  | 'd' => some double
  | 'D' => some longDouble
  | '*' => some cString
  | ':' => some selector
  | '%' => some atom
  | _ => none

/-- Bytes of a kind; `long` has 32 bits in this language whatever the platform's own `long`. -/
def size : Scalar → Nat
  | char | unsignedChar | bool => 1
  | short | unsignedShort => 2
  | int | unsignedInt | long | unsignedLong | float => 4
  | longLong | unsignedLongLong | double => 8
  | int128 | unsignedInt128 | longDouble => 16
  | cString | selector | atom => pointerSize

/-- Every scalar is aligned to its own size. -/
def alignment (kind : Scalar) : Nat := kind.size

def isFloating : Scalar → Bool
  | float | double | longDouble => true
  | _ => false

/-- A scalar that is passed as a machine pointer. -/
def isPointerLike : Scalar → Bool
  | cString | selector | atom => true
  | _ => false

/-- Every other scalar is an integer, `bool` included. -/
def isInteger (kind : Scalar) : Bool := !kind.isFloating && !kind.isPointerLike

def spelling : Scalar → String
  | char => "char"
  | unsignedChar => "unsigned char"
  | bool => "bool"
  | short => "short"
  | unsignedShort => "unsigned short"
  | int => "int"
  | unsignedInt => "unsigned int"
  | long => "long"
  | unsignedLong => "unsigned long"
  | longLong => "long long"
  | unsignedLongLong => "unsigned long long"
  | int128 => "__int128"
  | unsignedInt128 => "unsigned __int128"
  | float => "float"
  | double => "double"
  | longDouble => "long double"
  | cString => "char *"
  | selector => "SEL"
  | atom => "atom"

def name : Scalar → String
  | char => "Char"
  | unsignedChar => "UnsignedChar"
  | bool => "Bool"
  | short => "Short"
  | unsignedShort => "UnsignedShort"
  | int => "Int"
  | unsignedInt => "UnsignedInt"
  | long => "Long"
  | unsignedLong => "UnsignedLong"
  | longLong => "LongLong"
  | unsignedLongLong => "UnsignedLongLong"
  | int128 => "Int128"
  | unsignedInt128 => "UnsignedInt128"
  | float => "Float"
  | double => "Double"
  | longDouble => "LongDouble"
  | cString => "CString"
  | selector => "Selector"
  | atom => "Atom"

def ofName? (text : String) : Option Scalar := all.find? (·.name = text)

theorem ofCode?_code (kind : Scalar) : ofCode? kind.code = some kind := by
  cases kind <;> rfl

theorem code_of_ofCode? {code : Char} {kind : Scalar} (read : ofCode? code = some kind) :
    kind.code = code := by
  unfold ofCode? at read
  split at read <;> simp_all [Scalar.code] <;> subst read <;> rfl

theorem mem_all (kind : Scalar) : kind ∈ all := by
  cases kind <;> simp [all]

theorem size_pos (kind : Scalar) : 0 < kind.size := by
  cases kind <;> decide

end Scalar

end ForeignCall
