import ForeignCall.Call.Cache
import ForeignCall.Host.ObjectSystem
import ForeignCall.Value.Tuple

/-! # Calls

A call takes its arguments from a structure value. Before anything is called, the arguments are
checked against the signature, the entry point is resolved and the descriptor is fetched, in this
order (`Invocation.plan`). The callee then sees one pointer for each argument of the signature: for
a method the receiver and the selector first, then the fields of the arguments in place. Its result
becomes a value that owns its references exactly once (`Invocation.finish`).

The callee is a parameter: a function from the plan and a state of the caller's choice to the bytes
of the result and a new state.
-/

namespace ForeignCall

inductive ArgumentError where
  | notAnArgumentList (type : CType)
  | notAMethodSignature (encoding : String)
  | argumentCount (expected actual : Nat)
  | argumentType (index : Nat) (expected actual : CType)
  deriving DecidableEq

def ArgumentError.message : ArgumentError → String
  | notAnArgumentList type =>
    "arguments must be packed in a struct aggregate, got " ++ type.spelling
  | notAMethodSignature encoding =>
    "'" ++ encoding ++ "' is not a method signature (expected @ and : as first arguments)"
  | argumentCount expected actual =>
    "signature takes " ++ toString expected ++ " arguments, " ++ toString actual ++ " supplied"
  | argumentType index expected actual =>
    "argument " ++ toString index ++ ": signature expects " ++ expected.spelling ++ ", got "
      ++ actual.spelling

inductive InvocationError where
  | interface (error : InterfaceError)
  | resolution (selector : Option String)
  | arguments (error : ArgumentError)
  | result (error : ValueError)
  deriving DecidableEq

def InvocationError.message : InvocationError → String
  | interface error => "foreign call setup failed: " ++ error.message
  | resolution selector => "no entry point for " ++ selector.getD "function call"
  | arguments error => "type safety violation: " ++ error.message
  | result error => "return value: " ++ error.message

inductive Target where
  | function
  /-- A method, which receives the receiver and the selector before the arguments. -/
  | method (receiver : Nat) (selector : Selector)
  deriving DecidableEq, Repr

namespace Target

def selector? : Target → Option Selector
  | function => none
  | method _ selector => some selector

/-- The number of arguments that do not come from the argument value. -/
def implicitCount : Target → Nat
  | function => 0
  | method _ _ => 2

end Target

/-- Where the code of a call lies. -/
inductive EntryPoint where
  | address (address : Nat)
  /-- The host knows the receiver's implementation. -/
  | resolve
  deriving DecidableEq, Repr

/-- What a pointer handed to the callee points at. -/
inductive ArgumentPointer where
  | receiver (object : Nat)
  | selector (selector : Selector)
  /-- Bytes of the argument value. -/
  | buffer (offset : Nat)
  deriving DecidableEq, Repr

/-- The `size` bytes that a callee finds at a pointer, given where selectors lie in memory. -/
def ArgumentPointer.load (arguments : Value) (selectorAddress : Selector → Nat) (size : Nat) :
    ArgumentPointer → List UInt8
  | receiver object => Bytes.ofNat size object
  | selector name => Bytes.ofNat size (selectorAddress name)
  | buffer offset => (arguments.bytes.drop offset).take size

/-- A call that is about to happen. -/
structure CallPlan where
  address : Nat
  descriptor : Descriptor
  pointers : List ArgumentPointer

/-- A packed argument list, ready to be called. -/
structure Invocation where
  arguments : Value
  /-- Replaces the convention that the target implies. -/
  returns : Option ReturnOwnership := none

structure CallRequest where
  signature : Signature
  target : Target
  entry : EntryPoint

namespace Invocation

/-- Compares declared argument types, of which the first has an index, with the types of fields. -/
def checkTypes (host : Hierarchy) (index : Nat) : List Parameter → List Field →
    Except ArgumentError Unit
  | declared :: parameters, field :: fields =>
    if declared.type.accepts host field.type then checkTypes host (index + 1) parameters fields
    else .error (.argumentType index declared.type field.type)
  | _, _ => .ok ()

/-- The fields of a complete structure. -/
def argumentFields? : CType → Option (List Field)
  | .aggregate .struct _ members => some (placedFields .struct members)
  | _ => none

/-- The fields that become explicit arguments, if they fit the signature. -/
def validate (host : Hierarchy) (arguments : CType) (signature : Signature) (target : Target) :
    Except ArgumentError (List Field) :=
  match argumentFields? arguments with
  | none => .error (.notAnArgumentList arguments)
  | some fields =>
    if target.implicitCount ≠ 0 && !signature.isMethod then
      .error (.notAMethodSignature signature.encoding)
    else if signature.arguments.length ≠ fields.length + target.implicitCount then
      .error (.argumentCount signature.arguments.length (fields.length + target.implicitCount))
    else
      (checkTypes host target.implicitCount (signature.arguments.drop target.implicitCount)
        fields).map fun _ => fields

/-- The address to call. Null is no address, and a null receiver resolves nothing. -/
def resolve (host : Host) (target : Target) (entry : EntryPoint) : Except InvocationError Nat :=
  let address :=
    match entry, target with
    | .address address, _ => some address
    | .resolve, .method receiver selector =>
      if receiver = 0 then none else host.resolve receiver selector
    | .resolve, .function => none
  match address with
  | some address =>
    if address = 0 then .error (.resolution (target.selector?.map (·.name))) else .ok address
  | none => .error (.resolution (target.selector?.map (·.name)))

def pointers (target : Target) (fields : List Field) : List ArgumentPointer :=
  (match target with
    | .function => []
    | .method receiver selector => [.receiver receiver, .selector selector])
    ++ fields.map fun field => .buffer (field.offset?.getD 0)

/-- The bytes that a result needs while the call lasts. -/
def resultStorage (layout : Layout) : Nat := max layout.size pointerSize

/-- Checks a call and prepares it. The cache changes only if the descriptor is asked for. -/
def plan (host : Host) (settings : Settings) (cache : Cache) (invocation : Invocation)
    (request : CallRequest) : Except InvocationError CallPlan × Cache :=
  match validate host.hierarchy invocation.arguments.type request.signature request.target with
  | .error error => (.error (.arguments error), cache)
  | .ok fields =>
    match resolve host request.target request.entry with
    | .error error => (.error error, cache)
    | .ok address =>
      match cache.get settings request.signature with
      | (.error error, cache) => (.error (.interface error), cache)
      | (.ok descriptor, cache) =>
        if resultStorage descriptor.returnLayout < allocationLimit then
          (.ok ⟨address, descriptor, pointers request.target fields⟩, cache)
        else (.error (.interface (.unsupportedType request.signature.result.type)), cache)

/-- The convention for the returned reference: the chosen one, or that of the method's name; a
function keeps what it returns. -/
def ownership (invocation : Invocation) (target : Target) : ReturnOwnership :=
  invocation.returns.getD ((target.selector?.map .ofSelector).getD .unretained)

/-- The value of a call's result. References that the callee kept are taken once. -/
def finish (invocation : Invocation) (request : CallRequest) (result : List UInt8) :
    Except InvocationError (Value × List ReferenceEvent) :=
  let type := request.signature.result.type
  if type.unqualified.isVoid then .ok (.void, [])
  else
    let bytes := (result ++ Bytes.zeros (type.size - result.length)).take type.size
    let made :=
      match invocation.ownership request.target with
      | .unretained => Value.new type bytes
      | .retained => (Value.adopt type bytes).map (·, [])
    made.mapError .result

/-- What a call leaves behind. -/
structure Outcome (σ : Type) where
  result : Except InvocationError Value
  /-- The reference events of the caller's side. -/
  events : List ReferenceEvent
  cache : Cache
  state : σ

/-- Makes a call. The callee runs at most once, and not at all if the call could not be planned. -/
def invoke {σ : Type} (callee : CallPlan → σ → List UInt8 × σ) (host : Host) (settings : Settings)
    (cache : Cache) (invocation : Invocation) (request : CallRequest) (state : σ) : Outcome σ :=
  match plan host settings cache invocation request with
  | (.error error, cache) => ⟨.error error, [], cache, state⟩
  | (.ok plan, cache) =>
    let (bytes, state) := callee plan state
    match finish invocation request bytes with
    | .ok (value, events) => ⟨.ok value, events, cache, state⟩
    | .error error => ⟨.error error, [], cache, state⟩

end Invocation

end ForeignCall
