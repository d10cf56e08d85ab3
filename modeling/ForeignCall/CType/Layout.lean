import ForeignCall.Arithmetic
import ForeignCall.CType.Basic

/-! # Layout

Sizes, alignments and the placement of aggregate members under the 64-bit System V conventions.
A type with a part whose size or offset does not fit a 64-bit address has no layout.

A structure is placed member by member from a `Cursor`, the first free bit. An ordinary member
starts at the next multiple of its alignment. A bitfield takes the next free bits of the storage
unit that holds the cursor, or the first bits of the following unit when it would cross a unit
boundary; a bitfield of no width moves the cursor to the next unit of four bytes. An array of no
elements in last position is a flexible tail: it has an offset, and neither takes storage nor takes
part in the alignment. Every member of a union is placed at its start. What placement needs to know
of a member is its `Footprint`.
-/

namespace ForeignCall

def maxVectorAlignment : Nat := 16

/-- The size and the alignment of a type in bytes. -/
structure Layout where
  size : Nat
  alignment : Nat
  deriving DecidableEq, Repr

namespace Layout

def empty : Layout := ⟨0, 1⟩

def pointer : Layout := ⟨pointerSize, pointerSize⟩

def repeated? (element : Layout) (count : Nat) : Option Layout :=
  (fits? (element.size * count)).map fun size => ⟨size, element.alignment⟩

/-- The layout of a vector: its size is a power of two, and it is aligned to that size as far as
vectors are aligned at all. -/
def vector? (inner : Layout) : Option Layout :=
  (fits? (leastPowerOfTwo (max inner.size 1))).map fun size => ⟨size, min size maxVectorAlignment⟩

end Layout

/-- The bytes of the storage unit that holds a bitfield. -/
def storageUnit? (width : Nat) : Option Nat :=
  if width ≤ 32 then some 4 else if width ≤ 64 then some 8 else none

/-- What placement needs to know of a member. -/
inductive Footprint where
  /-- A bitfield of a width. -/
  | bits (width : Nat)
  /-- An ordinary member. -/
  | bytes (layout : Layout)
  /-- An array of no elements. -/
  | emptyArray (alignment : Nat)
  /-- A member whose layout is unknown. -/
  | unsized
  deriving DecidableEq, Repr

namespace Footprint

def layout? : Footprint → Option Layout
  | bits width => (storageUnit? width).map fun unit => ⟨unit, unit⟩
  | bytes layout => some layout
  | emptyArray alignment => some ⟨0, alignment⟩
  | unsized => none

def ofType (type : CType) (layout : Option Layout) : Footprint :=
  match type, layout with
  | .bitfield width, _ => bits width
  | _, none => unsized
  | .array 0 _, some layout => emptyArray layout.alignment
  | _, some layout => bytes layout

end Footprint

/-- The place of a member: its byte offset and, for a bitfield, the position of its first bit in the
storage unit at that offset. -/
structure Position where
  offset : Nat
  bit : Option Nat
  deriving DecidableEq, Repr

/-- The first free bit of a structure, as whole bytes and bits of the next one, and the largest
alignment so far. -/
structure Cursor where
  bytes : Nat
  bits : Nat
  alignment : Nat
  deriving DecidableEq, Repr

namespace Cursor

def start : Cursor := ⟨0, 0, 1⟩

/-- The first byte that no member has touched. -/
def byteEnd? (cursor : Cursor) : Option Nat :=
  fits? (cursor.bytes + if cursor.bits = 0 then 0 else 1)

/-- Takes `width` bits of the unit at `offset`, of which `used` bits lie before the cursor. -/
def takeBits? (cursor : Cursor) (offset used width : Nat) : Option (Position × Cursor) :=
  (fits? (offset + (used + width) / 8)).map fun bytes =>
    (⟨offset, some used⟩, { cursor with bytes := bytes, bits := (used + width) % 8 })

/-- Places a bitfield in a storage unit of `unit` bytes: in the unit that holds the cursor if the
field does not cross its end, and otherwise in the next one. -/
def placeBits? (cursor : Cursor) (width unit : Nat) : Option (Position × Cursor) :=
  let offset := cursor.bytes - cursor.bytes % unit
  let used := cursor.bytes % unit * 8 + cursor.bits
  if used + width ≤ unit * 8 then cursor.takeBits? offset used width
  else (fits? (offset + unit)).bind fun next => cursor.takeBits? next 0 width

/-- The next multiple of `step` bytes at which nothing has been placed. -/
def nextMultiple? (cursor : Cursor) (step : Nat) : Option Nat :=
  cursor.byteEnd?.bind fun stop => fits? (roundUp stop step)

/-- Places one member. The first result is its position, the second the cursor after it; either is
absent when it is not known. -/
def place (cursor : Cursor) (isLast : Bool) : Footprint → Option Position × Option Cursor
  | .unsized => (none, none)
  | .bits 0 =>
    match cursor.nextMultiple? 4 with
    | some next => (some ⟨next, some 0⟩, some { cursor with bytes := next, bits := 0 })
    | none => (none, none)
  | .bits width =>
    match (storageUnit? width).bind fun unit => (cursor.placeBits? width unit).map (·, unit) with
    | some ((position, next), unit) =>
      (some position, some { next with alignment := max cursor.alignment unit })
    | none => (none, none)
  | .emptyArray alignment =>
    match cursor.nextMultiple? alignment with
    | some start =>
      (some ⟨start, none⟩,
        some ⟨start, 0, if isLast then cursor.alignment else max cursor.alignment alignment⟩)
    | none => (none, none)
  | .bytes layout =>
    match cursor.nextMultiple? layout.alignment with
    | some start =>
      (some ⟨start, none⟩,
        (fits? (start + layout.size)).map fun stop =>
          ⟨stop, 0, max cursor.alignment layout.alignment⟩)
    | none => (none, none)

/-- Places members one after the other. After a member that leaves the cursor unknown, no position
is known. -/
def placeAll : Option Cursor → List Footprint → List (Option Position) × Option Cursor
  | cursor, [] => ([], cursor)
  | none, members => (members.map fun _ => none, none)
  | some cursor, member :: members =>
    let (position, next) := cursor.place members.isEmpty member
    let (positions, final) := placeAll next members
    (position :: positions, final)

/-- The layout of a structure whose last member ends at the cursor. -/
def layout? (cursor : Cursor) : Option Layout :=
  (cursor.nextMultiple? cursor.alignment).map fun size => ⟨size, cursor.alignment⟩

end Cursor

structure Placement where
  positions : List (Option Position)
  layout : Option Layout
  deriving DecidableEq, Repr

namespace Placement

/-- Members placed one after the other. -/
def ofStruct (members : List Footprint) : Placement :=
  let (positions, final) := Cursor.placeAll (some .start) members
  ⟨positions, final.bind Cursor.layout?⟩

/-- The layout of a union grows with each member and is unknown if one member's layout is. -/
def joinLayouts? : Layout → List Footprint → Option Layout
  | joined, [] => some joined
  | joined, member :: members =>
    member.layout?.bind fun layout =>
      joinLayouts? ⟨max joined.size layout.size, max joined.alignment layout.alignment⟩ members

/-- Members placed all at the start. -/
def ofUnion (members : List Footprint) : Placement where
  positions := members.map fun
    | .bits _ => some ⟨0, some 0⟩
    | _ => some ⟨0, none⟩
  layout := (joinLayouts? .empty members).bind fun joined =>
    (fits? (roundUp joined.size joined.alignment)).map fun size => ⟨size, joined.alignment⟩

def ofShape : Shape → List Footprint → Placement
  | .struct => ofStruct
  | .union => ofUnion

end Placement

namespace CType

mutual

/-- The layout of a type; types that are unknown, incomplete or too large have none. -/
def layout? : CType → Option Layout
  | unknown | forward _ _ => none
  | void => some .empty
  | scalar kind => some ⟨kind.size, kind.alignment⟩
  | object _ _ | classRef | block _ | wrapped .pointer _ => some .pointer
  | wrapped .const inner => layout? inner
  | wrapped .atomic inner => layout? inner
  | wrapped .complex inner => (layout? inner).bind (·.repeated? 2)
  | wrapped .vector inner => (layout? inner).bind (·.vector?)
  | bitfield width => (storageUnit? width).map fun unit => ⟨unit, unit⟩
  | array count element => (layout? element).bind (·.repeated? count)
  | aggregate shape _ members => (Placement.ofShape shape (footprints members)).layout

def footprints : List Member → List Footprint
  | [] => []
  | ⟨_, type, _⟩ :: members => Footprint.ofType type (layout? type) :: footprints members

end

def footprint (type : CType) : Footprint := Footprint.ofType type type.layout?

def isSized (type : CType) : Bool := type.layout?.isSome

/-- The bytes of a type; the largest address stands for an unknown size. -/
def size (type : CType) : Nat := (type.layout?.map (·.size)).getD maxAddress

/-- The alignment of a type; the largest address stands for an unknown one. -/
def alignment (type : CType) : Nat := (type.layout?.map (·.alignment)).getD maxAddress

theorem footprints_eq_map (members : List Member) :
    footprints members = members.map fun member => member.type.footprint := by
  induction members with
  | nil => rfl
  | cons member members ih => cases member; simp [footprints, footprint, ih]

end CType

end ForeignCall
