import ForeignCall.Call.Descriptor
import ForeignCall.Settings

/-! # Descriptor cache

Descriptors are kept for the signatures that were prepared last. The entries stand in the order in
which they were put, the latest first; a lookup that finds an entry leaves it where it is. A full
cache makes room by giving up the earliest entry that is not pinned; pinned entries that are passed
over are put anew. If every entry is pinned, the new descriptor is handed out and not kept.

A cache may follow the settings: before it keeps a new descriptor, it takes over the capacity in
force, and gives up its earliest entries, pinned or not, until they fit.
-/

namespace ForeignCall

/-- Counters stop at this number. -/
def counterLimit : Nat := UInt64.size - 1

def countUp (counter : Nat) : Nat := min (counter + 1) counterLimit

/-- A descriptor and the signature it was prepared for. -/
structure CacheEntry where
  signature : Signature
  descriptor : Descriptor

structure Cache where
  /-- The largest number of entries, at least one. -/
  capacity : Nat
  /-- The entries, the latest first. -/
  entries : List CacheEntry := []
  /-- The signatures that are pinned, each once, whether resident or not. -/
  pinned : List Signature := []
  hits : Nat := 0
  misses : Nat := 0
  /-- Whether the cache takes its capacity from the settings. -/
  followsSettings : Bool := false

namespace Cache

/-- A cache holds at least one entry. -/
def effectiveCapacity (capacity : Nat) : Nat := max capacity 1

def ofCapacity (capacity : Nat) : Cache := { capacity := effectiveCapacity capacity }

def following (settings : Settings) : Cache :=
  { capacity := effectiveCapacity settings.capacity, followsSettings := true }

def lookup? (cache : Cache) (signature : Signature) : Option Descriptor :=
  (cache.entries.find? (·.signature = signature)).map (·.descriptor)

def contains (cache : Cache) (signature : Signature) : Bool :=
  cache.entries.any (·.signature = signature)

def isPinned (cache : Cache) (signature : Signature) : Bool := cache.pinned.contains signature

def size (cache : Cache) : Nat := cache.entries.length

/-- The cache with the capacity in force, if it follows the settings. -/
def resize (settings : Settings) (cache : Cache) : Cache :=
  if cache.followsSettings then
    let capacity := effectiveCapacity settings.capacity
    { cache with capacity := capacity, entries := cache.entries.take capacity }
  else cache

/-- Entries with one less: looks at the earliest entry up to `attempts` times, gives it up if it is
not pinned, and puts it anew if it is. The flag says whether an entry was given up. -/
def evict (isPinned : Signature → Bool) : Nat → List CacheEntry → Bool × List CacheEntry
  | 0, entries => (false, entries)
  | attempts + 1, entries =>
    match entries.getLast? with
    | none => (false, entries)
    | some earliest =>
      if isPinned earliest.signature then
        evict isPinned attempts (earliest :: entries.dropLast)
      else (true, entries.dropLast)

/-- The cache with room for one more entry, if it can be made. -/
def makeRoom (cache : Cache) : Bool × Cache :=
  if cache.entries.length < cache.capacity then (true, cache)
  else
    let (done, entries) := evict cache.isPinned cache.entries.length cache.entries
    (done, { cache with entries := entries })

/-- Keeps a new descriptor, if room can be made, and counts the miss. -/
def keep (settings : Settings) (cache : Cache) (entry : CacheEntry) : Cache :=
  let (hasRoom, cache) := (cache.resize settings).makeRoom
  let cache := { cache with misses := countUp cache.misses }
  if hasRoom then { cache with entries := entry :: cache.entries } else cache

/-- The descriptor of a signature: the kept one, or a new one prepared under the settings in force. A
signature that cannot be prepared leaves the cache as it was. -/
def get (settings : Settings) (cache : Cache) (signature : Signature) :
    Except InterfaceError Descriptor × Cache :=
  match cache.lookup? signature with
  | some descriptor => (.ok descriptor, { cache with hits := countUp cache.hits })
  | none =>
    match Descriptor.prepare settings.verifyLayouts signature with
    | .error error => (.error error, cache)
    | .ok descriptor => (.ok descriptor, cache.keep settings ⟨signature, descriptor⟩)

/-- Keeps a signature resident once it has been prepared. -/
def pin (cache : Cache) (signature : Signature) : Cache :=
  { cache with pinned := if cache.isPinned signature then cache.pinned else signature :: cache.pinned }

/-- Ends the pinning of a signature. -/
def unpin (cache : Cache) (signature : Signature) : Cache :=
  { cache with pinned := cache.pinned.filter (· ≠ signature) }

/-- Gives up every entry; pins and counters stay. -/
def clear (cache : Cache) : Cache := { cache with entries := [] }

/-- A cache in a listing, up to its counters. -/
def listing (cache : Cache) : String :=
  "DescriptorCache \x7b len: " ++ toString cache.size ++ ", capacity: " ++ toString cache.capacity
    ++ ", pinned: " ++ toString cache.pinned.length ++ ", stats: LookupStats \x7b hits: "
    ++ toString cache.hits ++ ", misses: " ++ toString cache.misses

end Cache

end ForeignCall
