import ForeignCall.Value.Basic

/-! # Tuples

Packing values into one anonymous structure, the way an argument list lies in memory. Each entry is
stored in its field with a reference of its own; then the entries end. If an entry cannot be stored,
the references taken so far are dropped again and the entries end all the same.
-/

namespace ForeignCall

/-- A value to be packed, with the name of its field. -/
structure Entry where
  name : Option String
  value : Value
  deriving DecidableEq

namespace Value

def tupleType (entries : List Entry) : CType :=
  .aggregate .struct none (entries.map fun entry => .ofType entry.name entry.value.type)

/-- Stores entries in the fields from an index on. The value that comes with an error is the one in
which storing failed. -/
def storeEntries (host : Hierarchy) (tuple : Value) (index : Nat) :
    List Entry → Except (ValueError × Value) Value × List ReferenceEvent
  | [] => (.ok tuple, [])
  | entry :: entries =>
    match tuple.store host (.index index) entry.value with
    | .error error => (.error (error, tuple), [])
    | .ok (tuple, events) =>
      let (result, later) := storeEntries host tuple (index + 1) entries
      (result, events ++ later)

def dropEntries (entries : List Entry) : List ReferenceEvent :=
  entries.flatMap fun entry => entry.value.dropEvents

/-- Packs entries into a structure and ends them. -/
def tuple (host : Hierarchy) (entries : List Entry) :
    Except ValueError Value × List ReferenceEvent :=
  match zeroed (tupleType entries) with
  | .error error => (.error error, dropEntries entries)
  | .ok empty =>
    match storeEntries host empty 0 entries with
    | (.ok packed, events) => (.ok packed, events ++ dropEntries entries)
    | (.error (error, partly), events) =>
      (.error error, events ++ partly.dropEvents ++ dropEntries entries)

end Value

end ForeignCall
