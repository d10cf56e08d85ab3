import ForeignCall.CType.Layout
import ForeignCall.Encoding.Printer

/-! # Signatures and their frames

A signature lists its result and its arguments; where an argument lies in the frame follows from the
sizes before it. Each argument takes at least an `int`, and one of unknown size a pointer. Offsets
stop growing at the largest address. The full encoding of a signature writes the frame size after
the result and each argument's offset after the argument.
-/

namespace ForeignCall

/-- The least bytes an argument takes in a frame. -/
def intSlotSize : Nat := 4

/-- The bytes a parameter takes in a frame. -/
def Parameter.slotSize (parameter : Parameter) : Nat :=
  match parameter.type.layout? with
  | some layout => max layout.size intSlotSize
  | none => pointerSize

def Parameter.plain (type : CType) : Parameter := ⟨.none, type⟩

namespace Signature

def function (result : CType) (arguments : List CType) : Signature :=
  ⟨.plain result, arguments.map .plain⟩

/-- The signature of a method, which receives the receiver and the selector first. -/
def method (result : CType) (arguments : List CType) : Signature :=
  function result (.anyObject :: .scalar .selector :: arguments)

/-- The signature of a block, which receives itself first. -/
def ofBlock (result : CType) (arguments : List CType) : Signature :=
  function result (.block none :: arguments)

/-- The offset after a parameter at an offset. -/
def nextOffset (offset : Nat) (parameter : Parameter) : Nat :=
  min (offset + parameter.slotSize) maxAddress

/-- The offsets of parameters, of which the first has an offset. -/
def offsetsFrom (offset : Nat) : List Parameter → List Nat
  | [] => []
  | parameter :: parameters => offset :: offsetsFrom (nextOffset offset parameter) parameters

/-- The frame offsets of the arguments. -/
def offsets (signature : Signature) : List Nat := offsetsFrom 0 signature.arguments

/-- The bytes of all arguments. -/
def frameSize (signature : Signature) : Nat := signature.arguments.foldl nextOffset 0

/-- The first two arguments are a receiver and a selector. -/
def isMethod (signature : Signature) : Bool :=
  match signature.arguments with
  | ⟨_, .object _ _⟩ :: ⟨_, .scalar .selector⟩ :: _ => true
  | _ => false

/-- The first argument is a block. -/
def isBlock (signature : Signature) : Bool :=
  match signature.arguments with
  | ⟨_, .block _⟩ :: _ => true
  | _ => false

/-- The canonical encoding of a signature, with frame size and offsets. -/
def encode (signature : Signature) : List Char :=
  signature.result.attributes.encode ++ signature.result.type.encode ++ encodeNat signature.frameSize
    ++ (signature.arguments.zip signature.offsets).flatMap fun (argument, offset) =>
      argument.attributes.encode ++ argument.type.encode ++ encodeNat offset

def encoding (signature : Signature) : String := String.ofList signature.encode

end Signature

end ForeignCall
