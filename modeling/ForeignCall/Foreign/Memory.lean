import ForeignCall.Host.Selector
import ForeignCall.Value.Bytes

/-! # Memory outside values

Some pointers point at memory of their own: at the name of a selector, at a constant text, or at a
cell of zeroed bytes that callees may write. Such a region has an address from the first time it is
mentioned, and always the same one. Listings show the region and not its address.
-/

namespace ForeignCall

/-- A piece of memory outside values. -/
inductive Region where
  | selector (selector : Selector)
  /-- The bytes of a text, up to its first NUL, and a NUL. -/
  | text (text : String)
  | cell (name : String)
  deriving DecidableEq, Repr

/-- A pointer as it is written and shown. -/
inductive Pointer where
  | null
  | address (address : Nat)
  | region (region : Region)
  deriving DecidableEq, Repr

/-- How listings show the address of a region. -/
def Region.label : Region → String
  | selector registered => "<sel:" ++ registered.name ++ ">"
  | text characters => "<cstr:" ++ characters ++ ">"
  | cell name => "<cell:" ++ name ++ ">"

/-- The regions mentioned so far, and what the cells hold. -/
structure Memory where
  /-- The regions in the order of their first mention. -/
  regions : List Region := []
  /-- The cells and their bytes. -/
  cells : List (String × List UInt8) := []

namespace Memory

def cellSize : Nat := 64

/-- The address of the first region; it is far from every address that is written as a number. -/
def firstAddress : Nat := 0x7F5A91C36000

def spacing : Nat := 0x1000

def addressOf (index : Nat) : Nat := firstAddress + index * spacing

/-- The address of a pointer, and the memory in which its region has one. -/
def locate (memory : Memory) : Pointer → Nat × Memory
  | .null => (0, memory)
  | .address address => (address, memory)
  | .region region =>
    match memory.regions.findIdx? (· = region) with
    | some index => (addressOf index, memory)
    | none =>
      let cells :=
        match region with
        | .cell name => memory.cells ++ [(name, Bytes.zeros cellSize)]
        | _ => memory.cells
      (addressOf memory.regions.length, ⟨memory.regions ++ [region], cells⟩)

def regionAt? (memory : Memory) (address : Nat) : Option Region :=
  if firstAddress ≤ address && (address - firstAddress) % spacing = 0 then
    memory.regions[(address - firstAddress) / spacing]?
  else none

def pointerAt (memory : Memory) (address : Nat) : Pointer :=
  if address = 0 then .null
  else
    match memory.regionAt? address with
    | some region => .region region
    | none => .address address

/-- The bytes of a text up to its first NUL. -/
def textBytes (text : String) : List UInt8 := text.toUTF8.toList.takeWhile (· ≠ 0)

def load (memory : Memory) (address : Nat) : List UInt8 :=
  match memory.regionAt? address with
  | some (.selector selector) => textBytes selector.name ++ [0]
  | some (.text text) => textBytes text ++ [0]
  | some (.cell name) => (memory.cells.lookup name).getD []
  | none => []

/-- Overwrites the first bytes of a cell at an address. -/
def store (memory : Memory) (address : Nat) (patch : List UInt8) : Memory :=
  match memory.regionAt? address with
  | some (.cell name) =>
    { memory with
      cells := memory.cells.map fun (cell, bytes) =>
        (cell, if cell = name then Bytes.splice bytes 0 patch else bytes) }
  | _ => memory

/-- Eight bytes at a time, a region's address as the region and everything else in hexadecimal. The
number bounds the groups. -/
def renderGroups (memory : Memory) : Nat → List UInt8 → String
  | 0, bytes => Bytes.hex bytes
  | count + 1, bytes =>
    if bytes.length < 8 then Bytes.hex bytes
    else
      let group := bytes.take 8
      (match memory.regionAt? (Bytes.toNat group) with
        | some region => region.label
        | none => Bytes.hex group)
        ++ renderGroups memory count (bytes.drop 8)

/-- Bytes as listings show them. -/
def render (memory : Memory) (bytes : List UInt8) : String :=
  memory.renderGroups (bytes.length / 8 + 1) bytes

end Memory

end ForeignCall
