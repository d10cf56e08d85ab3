import ForeignCall.Call.Invocation
import ForeignCall.Encoding.Error
import ForeignCall.Foreign.Function
import ForeignCall.Value.Datum

/-! # Commands

What a session can be told to do, and what it answers. A session keeps values in registers and
caches under names. Data are written as literals, in which a pointer may stand for a region of memory.
-/

namespace ForeignCall

/-- A datum as it is written and shown. -/
inductive Literal where
  | integer (number : Int)
  | floating (bits : Nat)
  | truth (value : Bool)
  | pointer (pointer : Pointer)
  | list (items : List Literal)

namespace Literal

mutual

/-- The datum of a literal, and the memory in which its regions have addresses. -/
def locate (memory : Memory) : Literal → Datum × Memory
  | integer number => (.integer number, memory)
  | floating bits => (.floating bits, memory)
  | truth value => (.truth value, memory)
  | pointer target =>
    let (address, memory) := memory.locate target
    (.address address, memory)
  | list items =>
    let (items, memory) := locateAll memory items
    (.list items, memory)

/-- The data of literals, and the memory in which their regions have addresses. -/
def locateAll (memory : Memory) : List Literal → List Datum × Memory
  | [] => ([], memory)
  | item :: items =>
    let (first, memory) := locate memory item
    let (rest, memory) := locateAll memory items
    (first :: rest, memory)

end

mutual

def ofDatum (memory : Memory) : Datum → Literal
  | .integer number => integer number
  | .floating bits => floating bits
  | .truth value => truth value
  | .address address => pointer (memory.pointerAt address)
  | .list items => list (ofData memory items)

def ofData (memory : Memory) : List Datum → List Literal
  | [] => []
  | item :: items => ofDatum memory item :: ofData memory items

end

end Literal

/-- An entry of a tuple: new data, or a copy of a register. -/
inductive EntrySource where
  | literal (kind : DatumType) (literal : Literal)
  | register (register : String)

/-- An entry of a tuple, with the name of its field. -/
structure EntryRequest where
  name : Option String
  source : EntrySource

structure MethodRequest where
  receiver : Pointer
  selector : Selector
  /-- The entry point is given, and it is null. -/
  isNull : Bool

structure InvokeRequest where
  arguments : String
  signature : Signature
  function : Option String
  method : Option MethodRequest
  returning : Option ReturnOwnership
  cache : Option String

structure SettingsRequest where
  /-- Starts from texts in place of the settings in force. -/
  texts : Option (Option String × Option String)
  capacity : Option Nat
  verifyLayouts : Option Bool

inductive CommandError where
  | encoding (error : EncodingError)
  | value (error : ValueError)
  | interface (error : InterfaceError)
  | invocation (error : InvocationError)
  /-- The command names something that does not exist, or holds data of another kind. -/
  | unusable (what : String)
  /-- The command is of no known form, as the message says. -/
  | unreadable (message : String)

namespace CommandError

/-- The kind of data of a name is not among those that can be read and written. -/
def noDatumType (name : String) : CommandError := unreadable ("no type '" ++ name ++ "'")

def message : CommandError → String
  | encoding error => error.message
  | value error => error.message
  | interface error => error.message
  | invocation error => error.message
  | unusable what => "cannot use " ++ what
  | unreadable message => message

end CommandError

inductive Command where
  | zeroed (target : String) (type : CType)
  | new (target : String) (type : CType) (bytes : List UInt8)
  | ofRegion (target : String) (type : CType) (bytes : List UInt8)
  | void (target : String)
  | box (target : String) (kind : DatumType) (literal : Literal)
  | set (register : String) (place : Place) (kind : DatumType) (literal : Literal)
  | setBytes (register : String) (place : Place) (type : CType) (bytes : List UInt8)
  | setValue (register : String) (place : Place) (source : String)
  | poke (register : String) (offset : Nat) (bytes : List UInt8)
  | get (register : String) (place : Place) (kind : DatumType)
  | getBytes (register : String) (place : Place) (type : CType) (length : Nat)
  | extract (target source : String) (place : Place)
  | copy (target source : String)
  | move (target source : String)
  | drop (register : String)
  | info (register : String)
  | equal (left right : String)
  /-- `byValues` packs bare values, whose names do not count. -/
  | tuple (target : String) (entries : List EntryRequest) (byValues : Bool)
  | configure (request : SettingsRequest)
  | cacheNew (cache : String) (capacity : Nat)
  | cacheClear (cache : String)
  | cacheState (cache : String) (probes : Option (List Signature))
  | cacheGet (cache : String) (signature : Signature) (probes : Option (List Signature))
  | cachePin (cache : String) (signature : Signature)
  | cacheUnpin (cache : String) (signature : Signature)
  | invoke (target : String) (request : InvokeRequest)
  /-- A command that cannot be read, and the register it names. -/
  | malformed (register : Option String) (error : CommandError)

/-- The register whose bytes are shown after a command. -/
def Command.register? : Command → Option String
  | zeroed target _ | new target _ _ | ofRegion target _ _ | void target | box target _ _
  | extract target _ _ | copy target _ | move target _ | tuple target _ _ | invoke target _ =>
    some target
  | set register _ _ _ | setBytes register _ _ _ | setValue register _ _ | poke register _ _
  | get register _ _ | getBytes register _ _ _ | drop register | info register => some register
  | malformed register _ => register
  | equal _ _ | configure _ | cacheNew _ _ | cacheClear _ | cacheState _ _ | cacheGet _ _ _
  | cachePin _ _ | cacheUnpin _ _ => none

structure CacheReport where
  cache : Cache
  /-- For each probe, whether it is resident. -/
  contains : Option (List Bool)
  /-- Whether it is the cache that all calls share. -/
  isShared : Bool

inductive Answer where
  | done
  | literal (kind : DatumType) (literal : Literal)
  | bytes (shown : String)
  | value (value : Value)
  | truth (value : Bool)
  | entryCount (count : Nat)
  | settings (settings : Settings)
  | cache (report : CacheReport)
  | descriptor (report : CacheReport) (descriptor : Descriptor)
  | encoding (encoding : String)

end ForeignCall
