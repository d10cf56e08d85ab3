import ForeignCall.Call.Element
import ForeignCall.Signature.Frame

/-! # Call descriptors

A descriptor is what a call of one signature needs to know beforehand: the elements of the arguments
and of the result, and where the result is returned. If layouts are verified, a signature is refused
when the layout of an aggregate that it passes differs from the one that the calling convention
computes for its element.
-/

namespace ForeignCall

/-- The largest aggregate that is returned in registers; larger ones are returned in memory. -/
def registerReturnLimit : Nat := 16

/-- A prepared call of a signature. -/
structure Descriptor where
  parameters : List Element
  result : Element
  returnLayout : Layout
  isIndirect : Bool

namespace Descriptor

def resultElement (type : CType) : Except InterfaceError Element :=
  if type.unqualified.isVoid then .ok .void else type.element

def resultLayout (type : CType) : Except InterfaceError Layout :=
  if type.unqualified.isVoid then .ok .empty
  else
    match type.layout? with
    | some layout => .ok layout
    | none => .error (.unsupportedType type)

/-- The descriptor of a signature whose layouts are not verified. -/
def ofSignature (signature : Signature) : Except InterfaceError Descriptor := do
  let parameters ← signature.arguments.mapM (·.type.element)
  let type := signature.result.type
  let result ← resultElement type
  let returnLayout ← resultLayout type
  return ⟨parameters, result, returnLayout,
    type.unqualified.isAggregate && registerReturnLimit < returnLayout.size⟩

/-- Compares the layout of an aggregate with that of its element. Other types pass. -/
def checkLayout (type : CType) (element : Element) : Except InterfaceError Unit :=
  if type.unqualified.isAggregate then
    match type.layout? with
    | none => .error (.unsupportedType type)
    | some layout =>
      if layout = element.layout then .ok ()
      else .error (.layoutMismatch type layout element.layout)
  else .ok ()

/-- Verifies the arguments in order, then the result. -/
def verify (signature : Signature) (descriptor : Descriptor) : Except InterfaceError Unit := do
  (signature.arguments.zip descriptor.parameters).forM fun (argument, element) =>
    checkLayout argument.type element
  checkLayout signature.result.type descriptor.result

/-- The descriptor of a signature, with its layouts verified if that is asked for. -/
def prepare (verifyLayouts : Bool) (signature : Signature) : Except InterfaceError Descriptor := do
  let descriptor ← ofSignature signature
  if verifyLayouts then verify signature descriptor
  return descriptor

def argumentCount (descriptor : Descriptor) : Nat := descriptor.parameters.length

def listing (descriptor : Descriptor) : String :=
  "CallDescriptor \x7b argument_count: " ++ toString descriptor.argumentCount
    ++ ", return_layout: TypeLayout \x7b size: " ++ toString descriptor.returnLayout.size
    ++ ", alignment: " ++ toString descriptor.returnLayout.alignment
    ++ " \x7d, indirect_return: " ++ toString descriptor.isIndirect ++ ", .. \x7d"

end Descriptor

end ForeignCall
