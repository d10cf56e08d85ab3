import ForeignCall.CType.Field
import ForeignCall.CType.Spelling

/-! # Native elements

A foreign call describes every value it passes as an `Element`: a scalar, or a structure of elements
that the calling convention lays out on its own, each at the next multiple of its alignment
(`Element.layout`). `CType.element` finds the element of a type.

Structures of the type model may hold more than such a list can say, so the elements of a structure
are chosen to reproduce its layout (`Runs`): arrays are spread out, storage units of bitfields become
integers that absorb what shares their bytes, and gaps that no alignment explains are filled with
bytes. A union becomes a structure of equal units that covers its bytes.
-/

namespace ForeignCall

/-- A value as a foreign call describes it. -/
inductive Element where
  | void
  | integer (isSigned : Bool) (size : Nat)
  | floating (size : Nat)
  | pointer
  | record (elements : List Element)

namespace Element

def byte : Element := integer false 1

/-- The first part of a structure with one more element; its size is not rounded up yet. -/
def extendLayout (part element : Layout) : Layout :=
  ⟨roundUp part.size element.alignment + element.size, max part.alignment element.alignment⟩

/-- A structure with its size rounded up to its alignment. -/
def closeLayout (part : Layout) : Layout := ⟨roundUp part.size part.alignment, part.alignment⟩

mutual

/-- The layout that the calling convention gives an element. -/
def layout : Element → Layout
  | void => .empty
  | integer _ size | floating size => ⟨size, size⟩
  | pointer => .pointer
  | record elements => closeLayout (layoutFrom .empty elements)

/-- The first part of a structure with further elements. -/
def layoutFrom (part : Layout) : List Element → Layout
  | [] => part
  | element :: elements => layoutFrom (extendLayout part (layout element)) elements

end

end Element

/-- Why a call cannot be described. -/
inductive InterfaceError where
  | unsupportedType (type : CType)
  | emptyAggregate (type : CType)
  | layoutMismatch (type : CType) (expected actual : Layout)
  deriving DecidableEq

def InterfaceError.message : InterfaceError → String
  | unsupportedType type =>
    type.spelling ++ " cannot be passed through the C calling convention"
  | emptyAggregate type => "empty aggregate " ++ type.spelling ++ " has no libffi representation"
  | layoutMismatch type expected actual =>
    "layout mismatch for " ++ type.spelling ++ ": type model says " ++ toString expected.size ++ "/"
      ++ toString expected.alignment ++ ", libffi computed " ++ toString actual.size ++ "/"
      ++ toString actual.alignment

/-! ## Elements of a structure -/

/-- An element of a structure and the bytes it covers. -/
structure Run where
  start : Nat
  stop : Nat
  element : Element

/-- The elements of a structure so far, the last one first. -/
abbrev Runs := List Run

namespace Runs

/-- The first byte that no element covers. -/
def stop : Runs → Nat
  | [] => 0
  | run :: _ => run.stop

/-- Covers the bytes from one offset up to another with single bytes. -/
def fill (runs : Runs) (start stop : Nat) : Runs :=
  (List.range (stop - start)).foldl
    (fun runs index => ⟨start + index, start + index + 1, .byte⟩ :: runs) runs

/-- Adds an element at an offset. Bytes that are covered already are skipped; a member of which only
the first bytes are covered is finished with bytes; a gap before the element is filled unless the
element's alignment makes it. -/
def place (runs : Runs) (offset : Nat) (layout : Layout) (element : Element) : Runs :=
  if offset + layout.size ≤ stop runs then runs
  else if offset < stop runs then fill runs (stop runs) (offset + layout.size)
  else
    let padded := if roundUp (stop runs) layout.alignment = offset then runs
      else fill runs (stop runs) offset
    ⟨offset, offset + layout.size, element⟩ :: padded

/-- Adds a member `count` times, at offsets as far apart as its size. -/
def placeMany (runs : Runs) (offset count : Nat) (layout : Layout) (element : Element) : Runs :=
  (List.range count).foldl
    (fun runs index => place runs (offset + index * layout.size) layout element) runs

/-- Adds a storage unit of bitfields at an offset. Elements that reach into it are taken away, and
the bytes of theirs that lie before it are covered singly. -/
def placeUnit (runs : Runs) (offset unit : Nat) : Runs :=
  if offset + unit ≤ stop runs then runs
  else
    let kept := runs.dropWhile (offset < ·.stop)
    let before := if kept.length < runs.length then fill kept (stop kept) offset else kept
    place before offset ⟨unit, unit⟩ (.integer false unit)

end Runs

/-! ## Elements of types -/

/-- How a type is passed as a member of a structure. -/
inductive Passing where
  | one (element : Except InterfaceError Element)
  | many (count : Nat) (element : Except InterfaceError Element)
  | bits (width : Nat)

/-- The element of a type that is passed on its own: neither an array nor a bitfield is. -/
def Passing.element (type : CType) : Passing → Except InterfaceError Element
  | one element => element
  | many _ _ | bits _ => .error (.unsupportedType type)

/-- The element of a scalar; integers of 128 bits have none. -/
def Scalar.element? : Scalar → Option Element
  | char => some (.integer true 1)
  | unsignedChar | bool => some (.integer false 1)
  | short => some (.integer true 2)
  | unsignedShort => some (.integer false 2)
  | int | long => some (.integer true 4)
  | unsignedInt | unsignedLong => some (.integer false 4)
  | longLong => some (.integer true 8)
  | unsignedLongLong => some (.integer false 8)
  | float => some (.floating 4)
  | double => some (.floating 8)
  | longDouble => some (.floating 16)
  | cString | selector | atom => some .pointer
  | int128 | unsignedInt128 => none

structure PassedField where
  field : Field
  passing : Passing

/-- Adds a field of the structure `type` to the elements. -/
def placeField (type : CType) (runs : Runs) (passed : PassedField) : Except InterfaceError Runs :=
  match passed.field.offset? with
  | none => .error (.unsupportedType type)
  | some offset =>
    match passed.passing with
    | .bits 0 => .ok runs
    | .bits width =>
      match storageUnit? width with
      | some unit => .ok (runs.placeUnit offset unit)
      | none => .error (.unsupportedType type)
    | .many 0 _ => .ok runs
    | .many count element => do
      let element ← element
      match passed.field.type.unqualified with
      | .array _ item =>
        match item.layout? with
        | some layout => .ok (runs.placeMany offset count layout element)
        | none => .error (.unsupportedType type)
      | _ => .error (.unsupportedType type)
    | .one element =>
      match passed.field.type.layout? with
      | some layout => return runs.place offset layout (← element)
      | none => .error (.unsupportedType type)

def structElement (type : CType) (fields : List PassedField) : Except InterfaceError Element := do
  let runs ← fields.foldlM (placeField type) []
  if runs.isEmpty then .error (.emptyAggregate type)
  else return .record (runs.reverse.map (·.element))

/-- The unit that a union of a layout is passed in: a floating-point number if all members are of
that kind, and otherwise an integer as large as the alignment. -/
def unionUnit? (members : List Member) (layout : Layout) : Option (Element × Nat) :=
  let allAre (kind : Scalar) := members.all (·.type.unqualified.scalar? = some kind)
  if allAre .float then some (.floating 4, 4)
  else if allAre .double then some (.floating 8, 8)
  else if layout.alignment ∈ [1, 2, 4, 8] then
    some (.integer false layout.alignment, layout.alignment)
  else none

def unionElement (type : CType) (members : List Member) : Except InterfaceError Element :=
  match type.layout? with
  | none => .error (.unsupportedType type)
  | some layout =>
    if members.isEmpty || layout.size = 0 then .error (.emptyAggregate type)
    else
      match unionUnit? members layout with
      | some (unit, size) => .ok (.record (List.replicate (layout.size / size) unit))
      | none => .error (.unsupportedType type)

namespace CType

mutual

/-- How a type is passed as a member of a structure. Transparent wrappers change nothing. -/
def passing : CType → Passing
  | wrapped .const inner => passing inner
  | wrapped .atomic inner => passing inner
  | bitfield width => .bits width
  | array count item => .many count ((passing item).element item.unqualified)
  | scalar kind =>
    .one (match kind.element? with
      | some element => .ok element
      | none => .error (.unsupportedType (scalar kind)))
  | object _ _ | classRef | block _ | wrapped .pointer _ => .one (.ok .pointer)
  | wrapped .complex inner =>
    .one (((passing inner).element inner.unqualified).map fun part => .record [part, part])
  | aggregate .struct name members =>
    .one (structElement (aggregate .struct name members)
      ((placedFields .struct members).zipWith (fun field passing => ⟨field, passing⟩)
        (passings members)))
  | aggregate .union name members =>
    .one (unionElement (aggregate .union name members) members)
  | type => .one (.error (.unsupportedType type))

def passings : List Member → List Passing
  | [] => []
  | ⟨_, type, _⟩ :: members => passing type :: passings members

end

def element (type : CType) : Except InterfaceError Element := type.passing.element type.unqualified

end CType

end ForeignCall
