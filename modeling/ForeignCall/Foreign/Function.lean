import ForeignCall.Foreign.Floating
import ForeignCall.Foreign.Memory
import ForeignCall.Value.Reference

/-! # Functions that can be called

A table of C functions, each a name and a program on the bytes of its arguments. A function may read
and write memory, ask the host to keep an object, and count its calls. Integer arithmetic wraps. In
the signatures below `Point` is a structure of two 32-bit integers, `Pair` one of two 64-bit
floating-point numbers, and `Big` one of five 64-bit integers.
-/

namespace ForeignCall

/-- What functions share. -/
structure Machine where
  memory : Memory := {}
  /-- The calls of the function that counts them. -/
  countedCalls : Nat := 0
  /-- The reference events that the function in progress has issued. -/
  events : List ReferenceEvent := []

structure ForeignFunction where
  name : String
  run : List (List UInt8) → StateM Machine (List UInt8)

namespace ForeignFunction

/-- The argument with an index; one that is missing has no bytes. -/
def argument (arguments : List (List UInt8)) (index : Nat) : List UInt8 := (arguments[index]?).getD []

/-- Bytes cut or extended by zeros to a size. -/
def resizeBytes (size : Nat) (bytes : List UInt8) : List UInt8 :=
  (bytes ++ Bytes.zeros (size - bytes.length)).take size

/-- The signed integer of `size` bytes at an offset of an argument. -/
def signedAt (bytes : List UInt8) (offset size : Nat) : Int :=
  Bytes.toInt (resizeBytes size (bytes.drop offset))

def unsignedAt (bytes : List UInt8) (offset size : Nat) : Nat :=
  Bytes.toNat (resizeBytes size (bytes.drop offset))

/-- The bits of the 64-bit floating-point number at an offset of an argument. -/
def doubleAt (bytes : List UInt8) (offset : Nat) : UInt64 := UInt64.ofNat (unsignedAt bytes offset 8)

/-- The bits of a 32-bit floating-point argument, in 64 bits. -/
def floatAt (bytes : List UInt8) : UInt64 := Floating.widen (UInt32.ofNat (unsignedAt bytes 0 4))

def doubleBytes (bits : UInt64) : List UInt8 := Bytes.ofNat 8 bits.toNat

def pure (name : String) (result : List (List UInt8) → List UInt8) : ForeignFunction :=
  ⟨name, fun arguments => return result arguments⟩

/-- A function that returns its only argument of a size, padding included. -/
def identity (name : String) (size : Nat) : ForeignFunction :=
  pure name fun arguments => resizeBytes size (argument arguments 0)

/-- A function of two 32-bit integers. -/
def binary (name : String) (operation : Int → Int → Int) : ForeignFunction :=
  pure name fun arguments =>
    Bytes.ofInt 4 (operation (signedAt (argument arguments 0) 0 4) (signedAt (argument arguments 1) 0 4))

/-- Takes a reference to an object. Functions ask for it even if the object is null. -/
def retainObject (object : Nat) : StateM Machine Unit :=
  modify fun machine => { machine with events := machine.events ++ [.retain object] }

/-- `mix(float a, double b, signed char c)` is `a * b + c`. -/
def mix : ForeignFunction :=
  pure "mix" fun arguments =>
    doubleBytes (Floating.add
      (Floating.mul (floatAt (argument arguments 0)) (doubleAt (argument arguments 1) 0))
      (Floating.ofInt (signedAt (argument arguments 2) 0 1)))

/-- The sum of six integers of 8, 16 and 32 bits, signed and unsigned in turn. -/
def sumNarrow : ForeignFunction :=
  pure "sum_narrow" fun arguments =>
    Bytes.ofInt 8 (signedAt (argument arguments 0) 0 1 + unsignedAt (argument arguments 1) 0 1
      + signedAt (argument arguments 2) 0 2 + unsignedAt (argument arguments 3) 0 2
      + signedAt (argument arguments 4) 0 4 + unsignedAt (argument arguments 5) 0 4)

/-- The sum of ten 32-bit integers, each times its position from one on. -/
def manyIntegers : ForeignFunction :=
  pure "many_i" fun arguments =>
    Bytes.ofInt 8 ((List.range 10).foldl
      (fun sum (index : Nat) => sum + (index + 1 : Int) * signedAt (argument arguments index) 0 4) 0)

/-- The sum of ten floating-point numbers, each times its position from one on, left to right. -/
def manyDoubles : ForeignFunction :=
  pure "many_d" fun arguments =>
    doubleBytes ((List.range 10).foldl
      (fun sum (index : Nat) =>
        Floating.add sum (Floating.mul (Floating.ofInt (index + 1)) (doubleAt (argument arguments index) 0)))
      Floating.zero)

/-- `alternating(signed char a, float b, Point p, unsigned short c, double d, Pair q, long long e,
Big g)` is `a + b + p.x * 10 + p.y * 100 + c + d + q.x * 1000 + q.y + e + g.a + g.e * 2`, left to
right. -/
def alternating : ForeignFunction :=
  pure "alternating" fun arguments =>
    let part := argument arguments
    let times (factor : Int) (bits : UInt64) := Floating.mul bits (Floating.ofInt factor)
    doubleBytes ([
      floatAt (part 1),
      times 10 (Floating.ofInt (signedAt (part 2) 0 4)),
      times 100 (Floating.ofInt (signedAt (part 2) 4 4)),
      Floating.ofInt (unsignedAt (part 3) 0 2),
      doubleAt (part 4) 0,
      times 1000 (doubleAt (part 5) 0),
      doubleAt (part 5) 8,
      Floating.ofInt (signedAt (part 6) 0 8),
      Floating.ofInt (signedAt (part 7) 0 8),
      times 2 (Floating.ofInt (signedAt (part 7) 32 8))].foldl Floating.add
        (Floating.ofInt (signedAt (part 0) 0 1)))

/-- Both numbers of a `Pair` times a factor. -/
def scale : ForeignFunction :=
  pure "scale" fun arguments =>
    let factor := doubleAt (argument arguments 1) 0
    doubleBytes (Floating.mul (doubleAt (argument arguments 0) 0) factor)
      ++ doubleBytes (Floating.mul (doubleAt (argument arguments 0) 8) factor)

/-- The first five multiples of a number. -/
def makeBig : ForeignFunction :=
  pure "make_big" fun arguments =>
    (List.range 5).flatMap fun (index : Nat) =>
      Bytes.ofInt 8 (signedAt (argument arguments 0) 0 8 * (index + 1))

/-- The sum of the five numbers of a `Big`. -/
def sumBig : ForeignFunction :=
  pure "sum_big" fun arguments =>
    Bytes.ofInt 8 ((List.range 5).foldl
      (fun sum (index : Nat) => sum + signedAt (argument arguments 0) (index * 8) 8) 0)

/-- Counts its calls and returns its argument. -/
def counted : ForeignFunction where
  name := "counted"
  run arguments := do
    modify fun machine => { machine with countedCalls := machine.countedCalls + 1 }
    return resizeBytes 4 (argument arguments 0)

/-- Adds one to the 32-bit integer at an address. -/
def bump : ForeignFunction where
  name := "bump"
  run arguments := do
    let address := unsignedAt (argument arguments 0) 0 8
    modify fun machine =>
      let old := signedAt (machine.memory.load address) 0 4
      { machine with memory := machine.memory.store address (Bytes.ofInt 4 (old + 1)) }
    return []

/-- Writes a 32-bit integer to an address. -/
def store : ForeignFunction where
  name := "store"
  run arguments := do
    let address := unsignedAt (argument arguments 0) 0 8
    modify fun machine =>
      { machine with memory := machine.memory.store address (resizeBytes 4 (argument arguments 1)) }
    return []

/-- The bytes before the NUL at an address. -/
def length : ForeignFunction where
  name := "length"
  run arguments := do
    let memory := (← get).memory
    return Bytes.ofNat 8
      ((memory.load (unsignedAt (argument arguments 0) 0 8)).takeWhile (· ≠ 0)).length

/-- The receiver that `scale_method` knows. -/
def knownReceiver : Nat := 0xABC0

/-- The name of the selector at an address, as bytes. -/
def selectorName (memory : Memory) (address : Nat) : List UInt8 :=
  (memory.load address).takeWhile (· ≠ 0)

/-- Twice its argument, as the method `scaleBy:` of the receiver it knows, and otherwise -1. -/
def scaleMethod : ForeignFunction where
  name := "scale_method"
  run arguments := do
    let memory := (← get).memory
    let known := unsignedAt (argument arguments 0) 0 8 = knownReceiver
      && selectorName memory (unsignedAt (argument arguments 1) 0 8) = "scaleBy:".toUTF8.toList
    return Bytes.ofInt 4 (if known then 2 * signedAt (argument arguments 2) 0 4 else -1)

/-- A thousand times the receiver's address and the length of the selector's name. -/
def describeCall : ForeignFunction where
  name := "describe_call"
  run arguments := do
    let memory := (← get).memory
    return Bytes.ofNat 8 (unsignedAt (argument arguments 0) 0 8 * 1000
      + (selectorName memory (unsignedAt (argument arguments 1) 0 8)).length)

/-- Takes a reference to the argument with an index and returns it. -/
def keepArgument (name : String) (index : Nat) : ForeignFunction where
  name := name
  run arguments := do
    retainObject (unsignedAt (argument arguments index) 0 8)
    return resizeBytes 8 (argument arguments index)

def all : List ForeignFunction := [
  pure "nop" fun _ => [],
  pure "const42" fun _ => Bytes.ofInt 4 42,
  binary "add" (· + ·),
  binary "sub" (· - ·),
  mix,
  pure "negate" fun arguments => Bytes.ofInt 1 (-signedAt (argument arguments 0) 0 1),
  pure "is_even" fun arguments => [if unsignedAt (argument arguments 0) 0 4 % 2 = 0 then 1 else 0],
  counted,
  identity "id_c" 1, identity "id_C" 1, identity "id_s" 2, identity "id_S" 2, identity "id_i" 4,
  identity "id_I" 4, identity "id_q" 8, identity "id_Q" 8, identity "id_f" 4, identity "id_d" 8,
  identity "id_ptr" 8, identity "id_dd" 16, identity "id_ff" 8, identity "id_dff" 16,
  identity "id_qd" 16, identity "id_ccc" 3, identity "id_sss" 6, identity "id_w1" 8,
  identity "id_w2" 16, identity "id_w3" 24, identity "id_big" 40, identity "id_uf" 4,
  sumNarrow,
  manyIntegers,
  manyDoubles,
  alternating,
  pure "sum_point" fun arguments =>
    Bytes.ofInt 4 (signedAt (argument arguments 0) 0 4 + signedAt (argument arguments 0) 4 4),
  pure "mirror" fun arguments =>
    Bytes.ofInt 4 (signedAt (argument arguments 0) 4 4)
      ++ Bytes.ofInt 4 (signedAt (argument arguments 0) 0 4),
  scale,
  makeBig,
  sumBig,
  bump,
  store,
  length,
  scaleMethod,
  describeCall,
  pure "object_for" fun arguments => resizeBytes 8 (argument arguments 2),
  keepArgument "copy_object" 2,
  keepArgument "retained_identity" 0]

/-- The address of the function with an index; null is none. -/
def addressOf (index : Nat) : Nat := 0x400000 + index * 16

def address? (name : String) : Option Nat := (all.findIdx? (·.name = name)).map addressOf

def atAddress? (address : Nat) : Option ForeignFunction :=
  if 0x400000 ≤ address then all[(address - 0x400000) / 16]? else none

end ForeignFunction

end ForeignCall
