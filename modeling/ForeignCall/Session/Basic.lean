import ForeignCall.Session.Command

/-! # Sessions

A session runs commands over registers, caches and the memory that callees share. `Session.run` gives
one report for each command, with the reference events issued during it in order, and
`Session.finish` ends the registers in the order of their names. Events are recorded only if the
session has an object system to receive them.
-/

namespace ForeignCall

structure Session where
  objects : Option ObjectSystem
  settings : Settings := {}
  registers : List (String × Value) := []
  caches : List (String × Cache) := []
  /-- The cache of calls that name no other. -/
  shared : Cache := .following {}
  machine : Machine := {}
  /-- The events of the commands before. -/
  history : List ReferenceEvent := []
  /-- The events of the command in progress. -/
  events : List ReferenceEvent := []

/-- A command in progress. What happened before an error stays. -/
abbrev Step := ExceptT CommandError (StateM Session)

namespace Session

def sharedName : String := "global"

def host (session : Session) : Host := (session.objects.map (·.toHost)).getD .detached

def assign {α : Type} (name : String) (value : α) : List (String × α) → List (String × α)
  | [] => [(name, value)]
  | (other, old) :: rest =>
    if other = name then (name, value) :: rest else (other, old) :: assign name value rest

/-- Records events, if there is an object system. -/
def emit (events : List ReferenceEvent) : Step Unit :=
  modify fun session =>
    if session.objects.isSome then { session with events := session.events ++ events } else session

def load (name : String) : Step Value := do
  match (← get).registers.lookup name with
  | some value => return value
  | none => throw (.unusable ("register " ++ name))

/-- Puts a value into a register without ending the one it holds. -/
def replace (name : String) (value : Value) : Step Unit :=
  modify fun session => { session with registers := assign name value session.registers }

/-- Puts a value into a register and ends the one it held. -/
def store (name : String) (value : Value) : Step Unit := do
  let old := (← get).registers.lookup name
  replace name value
  if let some old := old then emit old.dropEvents

def take (name : String) : Step Value := do
  let value ← load name
  modify fun session =>
    { session with registers := session.registers.filter (·.1 ≠ name) }
  return value

def ofValue {α : Type} : Except ValueError α → Step α
  | .ok result => return result
  | .error error => throw (.value error)

/-- Emits the events of an operation and gives its result. -/
def perform {α : Type} (operation : Except ValueError (α × List ReferenceEvent)) : Step α := do
  let (result, events) ← ofValue operation
  emit events
  return result

def bytesOf (kind : DatumType) (literal : Literal) : Step (List UInt8) := do
  let session ← get
  let (datum, memory) := literal.locate session.machine.memory
  set { session with machine := { session.machine with memory := memory } }
  match kind.encode? datum with
  | some bytes => return bytes
  | none => throw (.unusable "datum")

def copyOf (name : String) : Step Value := do
  let value ← load name
  emit value.copyEvents
  return value

def addressOf (pointer : Pointer) : Step Nat := do
  let session ← get
  let (address, memory) := session.machine.memory.locate pointer
  set { session with machine := { session.machine with memory := memory } }
  return address

def hierarchy : Step Hierarchy := return (← get).host.hierarchy

def update (register : String)
    (change : Hierarchy → Value → Except ValueError (Value × List ReferenceEvent)) : Step Unit := do
  let value ← load register
  replace register (← perform (change (← hierarchy) value))

/-! ## Caches -/

def cacheOf (name : String) : Step Cache := do
  let session ← get
  if name = sharedName then return session.shared
  else
    match session.caches.lookup name with
    | some cache => return cache
    | none => throw (.unusable ("cache " ++ name))

def setCache (name : String) (cache : Cache) : Step Unit :=
  modify fun session =>
    if name = sharedName then { session with shared := cache }
    else { session with caches := assign name cache session.caches }

def report (name : String) (cache : Cache) (probes : Option (List Signature)) : CacheReport where
  cache := cache
  contains := probes.map fun probes => probes.map cache.contains
  isShared := name = sharedName

/-! ## Calls -/

def selectorAddress (memory : Memory) (selector : Selector) : Nat :=
  (memory.locate (.region (.selector selector))).1

/-- Runs the function at the address of a call. -/
def callee (arguments : Value) (signature : Signature) (plan : CallPlan) (machine : Machine) :
    List UInt8 × Machine :=
  let bytes := (plan.pointers.zip signature.arguments).map fun (pointer, parameter) =>
    pointer.load arguments (selectorAddress machine.memory) parameter.type.size
  match ForeignFunction.atAddress? plan.address with
  | some function => function.run bytes machine
  | none => ([], machine)

def requestOf (request : InvokeRequest) : Step CallRequest := do
  let address := request.function.map fun name => (ForeignFunction.address? name).getD 0
  match request.method with
  | none => return ⟨request.signature, .function, .address (address.getD 0)⟩
  | some method =>
    let receiver ← addressOf method.receiver
    let _ ← addressOf (.region (.selector method.selector))
    let entry :=
      match address with
      | some address => EntryPoint.address address
      | none => if method.isNull then .address 0 else .resolve
    return ⟨request.signature, .method receiver method.selector, entry⟩

/-- Makes a call with a copy of its arguments, which ends before the result is stored. -/
def call (target : String) (request : InvokeRequest) : Step Answer := do
  let arguments ← copyOf request.arguments
  let callRequest ← requestOf request
  let cacheName := request.cache.getD sharedName
  let cache ← cacheOf cacheName
  let session ← get
  let outcome := Invocation.invoke (callee arguments request.signature) session.host
    session.settings cache ⟨arguments, request.returning⟩ callRequest session.machine
  set { session with machine := { outcome.state with events := [] } }
  setCache cacheName outcome.cache
  emit outcome.state.events
  emit outcome.events
  emit arguments.dropEvents
  match outcome.result with
  | .ok value =>
    store target value
    return .encoding value.encoding
  | .error error => throw (.invocation error)

/-! ## Commands -/

def entryOf (request : EntryRequest) : Step Entry := do
  match request.source with
  | .literal kind literal => return ⟨request.name, ← perform (Value.box kind (← bytesOf kind literal))⟩
  | .register name => return ⟨request.name, ← copyOf name⟩

/-- Ends entries that have been made, and fails. -/
def abandon {α : Type} (made : List Entry) (error : CommandError) : Step α := do
  emit (Value.dropEntries made)
  throw error

/-- The values of the entries of a tuple, after those already made. If one cannot be made, all
before it end. -/
def entriesOf (made : List Entry) : List EntryRequest → Step (List Entry)
  | [] => return made
  | request :: requests => do
    let entry ← tryCatch (entryOf request) (abandon made)
    entriesOf (made ++ [entry]) requests

def execute : Command → Step Answer
  | .zeroed target type => do
    store target (← ofValue (Value.zeroed type))
    return .done
  | .new target type bytes => do
    store target (← perform (Value.new type bytes))
    return .done
  | .ofRegion target type bytes => do
    store target (← perform (Value.ofRegion type bytes))
    return .done
  | .void target => do
    store target .void
    return .done
  | .box target kind literal => do
    store target (← perform (Value.box kind (← bytesOf kind literal)))
    return .done
  | .set register place kind literal => do
    let bytes ← bytesOf kind literal
    update register fun host value => value.set host place kind bytes
    return .done
  | .setBytes register place type bytes => do
    update register fun host value => value.write host place bytes type
    return .done
  | .setValue register place source => do
    let copy ← copyOf source
    try update register fun host value => value.store host place copy
    finally emit copy.dropEvents
    return .done
  | .poke register offset bytes => do
    replace register ((← load register).poke offset bytes)
    return .done
  | .get register place kind => do
    let datum ← ofValue ((← load register).get (← hierarchy) place kind)
    return .literal kind (.ofDatum (← get).machine.memory datum)
  | .getBytes register place type length => do
    let bytes ← ofValue ((← load register).read (← hierarchy) place type length)
    return .bytes ((← get).machine.memory.render bytes)
  | .extract target source place => do
    store target (← perform ((← load source).extract place))
    return .done
  | .copy target source => do
    store target (← copyOf source)
    return .done
  | .move target source => do
    store target (← take source)
    return .done
  | .drop register => do
    emit (← take register).dropEvents
    return .done
  | .info register => return .value (← load register)
  | .equal left right => return .truth ((← load left) = (← load right))
  | .tuple target requests byValues => do
    let entries ← entriesOf [] requests
    let entries := if byValues then entries.map fun entry => ⟨none, entry.value⟩ else entries
    let (result, events) := Value.tuple (← hierarchy) entries
    emit events
    store target (← ofValue result)
    return if byValues then .done else .entryCount entries.length
  | .configure request => do
    let session ← get
    let start :=
      match request.texts with
      | some (capacity, verifyLayouts) => Settings.ofTexts capacity verifyLayouts
      | none => session.settings
    let settings : Settings :=
      ⟨request.capacity.getD start.capacity, request.verifyLayouts.getD start.verifyLayouts⟩
    set { session with settings := settings }
    return .settings settings
  | .cacheNew name capacity => do
    let cache := Cache.ofCapacity capacity
    setCache name cache
    return .cache (report name cache none)
  | .cacheClear name => do
    let cache := (← cacheOf name).clear
    setCache name cache
    return .cache (report name cache none)
  | .cacheState name probes => return .cache (report name (← cacheOf name) probes)
  | .cacheGet name signature probes => do
    let (result, cache) := (← cacheOf name).get (← get).settings signature
    setCache name cache
    match result with
    | .ok descriptor => return .descriptor (report name cache probes) descriptor
    | .error error => throw (.interface error)
  | .cachePin name signature => do
    setCache name ((← cacheOf name).pin signature)
    return .done
  | .cacheUnpin name signature => do
    setCache name ((← cacheOf name).unpin signature)
    return .done
  | .invoke target request => call target request
  | .malformed _ error => throw error

/-- What is shown of a command. -/
structure StepReport where
  answer : Except CommandError Answer
  /-- The bytes of the register that the command names. -/
  bytes : Option String
  events : List ReferenceEvent

def runCommand (session : Session) (command : Command) : StepReport × Session :=
  let (answer, after) := (execute command).run session
  let bytes := do
    let value ← after.registers.lookup (← command.register?)
    some (after.machine.memory.render value.bytes)
  (⟨answer, bytes, after.events⟩,
    { after with history := after.history ++ after.events, events := [] })

def run (session : Session) : List Command → List StepReport × Session
  | [] => ([], session)
  | command :: commands =>
    let (report, session) := session.runCommand command
    let (reports, session) := run session commands
    (report :: reports, session)

structure FinalReport where
  /-- The events of the end of the registers. -/
  events : List ReferenceEvent
  /-- The reference count of every object that an event touched, if there is an object system. -/
  counts : Option (List (Nat × Int))
  countedCalls : Nat
  cells : List (String × List UInt8)

/-- Ends every register, in the order of their names. -/
def finish (session : Session) : FinalReport :=
  let ordered := session.registers.mergeSort fun left right => decide (left.1 ≤ right.1)
  let events := if session.objects.isSome then ordered.flatMap (·.2.dropEvents) else []
  let all := session.history ++ events
  { events := events
    counts := session.objects.map fun _ =>
      (all.map (·.object)).eraseDups.map fun object => (object, balance all object)
    countedCalls := session.machine.countedCalls
    cells := session.machine.memory.cells }

end Session

end ForeignCall
