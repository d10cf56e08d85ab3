import ForeignCall.Proofs.Acceptance.Storing
import ForeignCall.Proofs.Session.Steps

/-! # Atomic writes

A write happens as a whole or not at all: one that fails leaves the session as it was
(`Session.run_update`). One that succeeds takes all new references before it drops an old one, so in
between no object has fewer references than both before and after (`NeverDips`). Packing is a run of
such writes; where it fails, the end of the partly filled tuple gives back what the writes took.
-/

namespace ForeignCall

/-! ## Taking before dropping -/

/-- At no point of the events does an object have fewer references than both before and after them. -/
def NeverDips (events : List ReferenceEvent) : Prop :=
  ∀ part, part <+: events → ∀ (object : Nat) (count : Int),
    min count (count + balance events object) ≤ count + balance part object

theorem balance_nonneg {events : List ReferenceEvent}
    (takes : ∀ event ∈ events, 0 ≤ event.change) (object : Nat) : 0 ≤ balance events object := by
  induction events with
  | nil => exact Int.le_refl 0
  | cons event events ih =>
    obtain ⟨first, others⟩ := List.forall_mem_cons.mp takes
    have rest := ih others
    rw [balance]
    split <;> omega

theorem balance_nonpos {events : List ReferenceEvent}
    (drops : ∀ event ∈ events, event.change ≤ 0) (object : Nat) : balance events object ≤ 0 := by
  induction events with
  | nil => exact Int.le_refl 0
  | cons event events ih =>
    obtain ⟨first, others⟩ := List.forall_mem_cons.mp drops
    have rest := ih others
    rw [balance]
    split <;> omega

/-- Events that take first and drop later rise and then fall. -/
theorem neverDips_append {earlier later : List ReferenceEvent}
    (takes : ∀ event ∈ earlier, 0 ≤ event.change) (drops : ∀ event ∈ later, event.change ≤ 0) :
    NeverDips (earlier ++ later) := by
  rintro part ⟨rest, whole⟩ object count
  rcases List.append_eq_append_iff.mp whole with ⟨middle, rising, _⟩ | ⟨middle, rfl, falling⟩
  · have risen : 0 ≤ balance part object := by
      apply balance_nonneg
      intro event present
      apply takes
      rw [rising]
      exact List.mem_append_left _ present
    omega
  · have ahead : balance rest object ≤ 0 := by
      apply balance_nonpos
      intro event present
      apply drops
      rw [falling]
      exact List.mem_append_right _ present
    rw [falling]
    simp only [balance_append]
    omega

theorem change_of_mem_retainSlots {bytes : List UInt8} {slots : List Nat} :
    ∀ event ∈ retainSlots bytes slots, event.change = 1 := by
  intro event present
  obtain ⟨object, _, rfl⟩ := List.mem_map.mp present
  rfl

theorem change_of_mem_releaseSlots {bytes : List UInt8} {slots : List Nat} :
    ∀ event ∈ releaseSlots bytes slots, event.change = -1 := by
  intro event present
  obtain ⟨object, _, rfl⟩ := List.mem_map.mp present
  rfl

/-- The events of a write. -/
theorem neverDips_write (bytes old : List UInt8) (slots : List Nat) :
    NeverDips (retainSlots bytes slots ++ releaseSlots old slots) := by
  apply neverDips_append
  · intro event present
    rw [change_of_mem_retainSlots event present]
    decide
  · intro event present
    rw [change_of_mem_releaseSlots event present]
    decide

namespace Value

variable {host : Hierarchy} {value tuple partly : Value} {entries : List Entry} {index : Nat}
  {place : Place} {incoming : CType} {bytes : List UInt8} {error : ValueError}
  {events : List ReferenceEvent}

/-! ## Writes that fail -/

/-- Why bytes of a type cannot be written to a place: it names nothing, its type does not accept the
bytes' type, it has no bytes in the value, or it has more or fewer. -/
inductive Refuses (value : Value) (host : Hierarchy) (place : Place) (incoming : CType)
    (bytes : List UInt8) : ValueError → Prop
  | place {error : ValueError} (missing : value.slot place = .error error) :
    Refuses value host place incoming bytes error
  | type {slot : Slot} (found : value.slot place = .ok slot)
    (refused : slot.type.isCompatible host incoming = false) :
    Refuses value host place incoming bytes (.typeMismatch slot.type incoming)
  | region {slot : Slot} {error : ValueError} (found : value.slot place = .ok slot)
    (missing : value.region slot = .error error) : Refuses value host place incoming bytes error
  | length {slot : Slot} {region : List UInt8} (found : value.slot place = .ok slot)
    (present : value.region slot = .ok region) (different : bytes.length ≠ region.length) :
    Refuses value host place incoming bytes
      (.sizeMismatch slot.type region.length bytes.length)

theorem refuses_of_write (failed : value.write host place bytes incoming = .error error) :
    value.Refuses host place incoming bytes error := by
  unfold write at failed
  cases found : value.slot place with
  | error reason =>
    rw [found] at failed
    cases failed
    exact .place found
  | ok slot =>
    rw [found] at failed
    replace failed : value.writeSlot host slot bytes incoming = .error error := failed
    unfold writeSlot at failed
    -- The checks of a write, in the order in which it makes them.
    split at failed
    next compatible =>
      split at failed
      next unsized =>
        cases failed
        exact .region found (by simp only [Value.region, unsized])
      next layout known =>
        split at failed
        next missing =>
          cases failed
          exact .region found (by simp only [Value.region, known, missing])
        next region present =>
          have isRegion : value.region slot = .ok region := by simp only [Value.region, known, present]
          split at failed
          next => cases failed
          next different =>
            cases failed
            rw [← Bytes.length_slice? present] at different ⊢
            exact .length found isRegion different
    next refused =>
      cases failed
      exact .type found (by simpa using refused)

/-! ## Packing that fails -/

/-- Storing entries fails at one of them, after it has stored those before. -/
theorem storeEntries_eq_error
    (failed : storeEntries host tuple index entries = (.error (error, partly), events)) :
    ∃ before entry after, entries = before ++ entry :: after ∧
      storeEntries host tuple index before = (.ok partly, events) ∧
      partly.store host (.index (index + before.length)) entry.value = .error error := by
  induction entries generalizing tuple index events with
  | nil => simp [storeEntries] at failed
  | cons first entries ih =>
    cases stored : tuple.store host (.index index) first.value with
    | error reason =>
      simp only [storeEntries, stored, Prod.mk.injEq, Except.error.injEq] at failed
      obtain ⟨⟨rfl, rfl⟩, rfl⟩ := failed
      exact ⟨[], first, entries, rfl, rfl, stored⟩
    | ok result =>
      obtain ⟨next, taken⟩ := result
      rcases rest : storeEntries host next (index + 1) entries with ⟨outcome, later⟩
      simp only [storeEntries, stored, rest, Prod.mk.injEq] at failed
      obtain ⟨rfl, rfl⟩ := failed
      obtain ⟨before, entry, after, rfl, storing, missed⟩ := ih rest
      refine ⟨first :: before, entry, after, rfl, ?_, ?_⟩
      · simp only [storeEntries, stored, storing]
      · rwa [List.length_cons, Nat.add_comm before.length, ← Nat.add_assoc]

/-- Packing that fails drops what it has taken, and ends the entries. -/
theorem tuple_eq_error (failed : Value.tuple host entries = (.error error, events)) :
    (zeroed (tupleType entries) = .error error ∧ events = dropEntries entries) ∨
    ∃ before entry after empty partly taken, entries = before ++ entry :: after ∧
      zeroed (tupleType entries) = .ok empty ∧
      storeEntries host empty 0 before = (.ok partly, taken) ∧
      partly.store host (.index before.length) entry.value = .error error ∧
      events = taken ++ partly.dropEvents ++ dropEntries entries ∧
      ∀ object, balance (taken ++ partly.dropEvents) object = 0 := by
  unfold Value.tuple at failed
  cases made : zeroed (tupleType entries) with
  | error reason =>
    simp only [made, Prod.mk.injEq, Except.error.injEq] at failed
    obtain ⟨rfl, rfl⟩ := failed
    exact .inl ⟨rfl, rfl⟩
  | ok empty =>
    rcases storing : storeEntries host empty 0 entries with ⟨⟨reason, partly⟩ | packed, taken⟩
    · simp only [made, storing, Prod.mk.injEq, Except.error.injEq] at failed
      obtain ⟨rfl, rfl⟩ := failed
      obtain ⟨before, entry, after, split, stored, missed⟩ := storeEntries_eq_error storing
      rw [Nat.zero_add] at missed
      refine .inr ⟨before, entry, after, empty, partly, taken, split, rfl, stored, missed, rfl, ?_⟩
      intro object
      have balanced := balance_storeEntries host empty 0 entries object
      rw [storing] at balanced
      simp only [Value.stored, references_zeroed made object] at balanced
      rw [balance_append, balance_dropEvents, balanced]
      omega
    · simp [made, storing] at failed

end Value

namespace Session

def RefusesBytes (session : Session) (register : String) (place : Place) (type : CType)
    (bytes : List UInt8) (error : CommandError) : Prop :=
  session.registers.lookup register = none ∧ error = .unusable ("register " ++ register) ∨
    ∃ value reason, session.registers.lookup register = some value ∧ error = .value reason ∧
      value.Refuses session.host.hierarchy place type bytes reason

def afterUpdate (session : Session) (register : String) (updated : Value)
    (events : List ReferenceEvent) : Session :=
  { session with
    registers := assign register updated session.registers
    events := session.events ++ if session.objects.isSome then events else [] }

/-- A write of bytes leaves the session as it is, or it changes the register and issues the events of
the write. -/
theorem setBytes_cases (session : Session) (register : String) (place : Place) (type : CType)
    (bytes : List UInt8) :
    (∃ error, session.RefusesBytes register place type bytes error ∧
      (execute (.setBytes register place type bytes)).run session = (.error error, session)) ∨
    ∃ value updated slot old, session.registers.lookup register = some value ∧
      value.slot place = .ok slot ∧ value.region slot = .ok old ∧
      value.write session.host.hierarchy place bytes type =
        .ok (updated, retainSlots bytes slot.owned ++ releaseSlots old slot.owned) ∧
      (execute (.setBytes register place type bytes)).run session =
        (.ok .done, session.afterUpdate register updated
          (retainSlots bytes slot.owned ++ releaseSlots old slot.owned)) := by
  simp only [execute, run_bind, run_update]
  cases found : session.registers.lookup register with
  | none => exact .inl ⟨_, .inl ⟨found, rfl⟩, rfl⟩
  | some value =>
    cases written : value.write session.host.hierarchy place bytes type with
    | error reason =>
      refine .inl ⟨.value reason, .inr ⟨value, reason, found, rfl, ?_⟩, ?_⟩
      · exact Value.refuses_of_write written
      · simp only [written]
    | ok result =>
      obtain ⟨updated, events⟩ := result
      obtain ⟨slot, isSlot, changed⟩ := Value.write_eq_ok written
      obtain ⟨old, _, _, isOld, rfl, _⟩ := Value.replaces_of_writeSlot isSlot changed
      refine .inr ⟨value, updated, slot, old, rfl, isSlot, isOld, written, ?_⟩
      simp only [written]
      rfl

/-- Writes are atomic and take before they drop. A write of bytes that fails leaves everything as it
was; one that succeeds takes the references of the new bytes and then drops those that the slot held,
and in between no object has fewer references than both before and after. Packing that fails at an
entry gives back what the partly filled tuple has taken. -/
theorem writes_atomic :
    (∀ (session : Session) (register : String) (place : Place) (type : CType) (bytes : List UInt8),
      (∀ error after,
        (execute (.setBytes register place type bytes)).run session = (.error error, after) →
          after = session ∧ session.RefusesBytes register place type bytes error) ∧
      ∀ answer after,
        (execute (.setBytes register place type bytes)).run session = (.ok answer, after) →
          ∃ value updated slot old events, session.registers.lookup register = some value ∧
            value.slot place = .ok slot ∧ value.region slot = .ok old ∧
            events = retainSlots bytes slot.owned ++ releaseSlots old slot.owned ∧
            value.write session.host.hierarchy place bytes type = .ok (updated, events) ∧
            after = session.afterUpdate register updated events ∧ NeverDips events) ∧
    ∀ (host : Hierarchy) (entries : List Entry) (error : ValueError) (events : List ReferenceEvent),
      Value.tuple host entries = (.error error, events) →
        (Value.zeroed (Value.tupleType entries) = .error error ∧
          events = Value.dropEntries entries) ∨
        ∃ before entry after empty partly taken, entries = before ++ entry :: after ∧
          Value.zeroed (Value.tupleType entries) = .ok empty ∧
          Value.storeEntries host empty 0 before = (.ok partly, taken) ∧
          partly.store host (.index before.length) entry.value = .error error ∧
          events = taken ++ partly.dropEvents ++ Value.dropEntries entries ∧
          ∀ object, balance (taken ++ partly.dropEvents) object = 0 := by
  refine ⟨fun session register place type bytes => ⟨?_, ?_⟩, fun _ _ _ _ => Value.tuple_eq_error⟩
  · intro error after ran
    rcases session.setBytes_cases register place type bytes with ⟨_, refused, failed⟩ |
      ⟨_, _, _, _, _, _, _, _, succeeded⟩
    · cases failed.symm.trans ran
      exact ⟨rfl, refused⟩
    · cases succeeded.symm.trans ran
  · intro answer after ran
    rcases session.setBytes_cases register place type bytes with ⟨_, _, failed⟩ |
      ⟨value, updated, slot, old, found, isSlot, isOld, written, succeeded⟩
    · cases failed.symm.trans ran
    · cases succeeded.symm.trans ran
      exact ⟨value, updated, slot, old, _, found, isSlot, isOld, rfl, written, rfl,
        neverDips_write bytes old slot.owned⟩

def pairType : CType :=
  .aggregate .struct none [.ofType (some "left") .anyObject, .ofType (some "right") .anyObject]

def pairValue : Value := ⟨pairType, Bytes.ofNat 8 32 ++ Bytes.ofNat 8 48, by decide⟩

/-- The same objects, each in the place of the other. -/
def swappedValue : Value := ⟨pairType, Bytes.ofNat 8 48 ++ Bytes.ofNat 8 32, by decide⟩

/-- A session in which a register holds two objects. -/
def pairSession : Session where
  objects := some {}
  registers := [("pair", pairValue)]

/-- An object, and a bitfield without a storage unit in its structure. -/
def unfitEntries : List Entry :=
  [⟨none, leafValue⟩, ⟨none, ⟨.bitfield 0, [0, 0, 0, 0], by decide⟩⟩]

/-- Too few bytes change nothing. Two objects that change places are both taken before either is
dropped. Packing an object and then the unfit bitfield takes the object once and drops it twice: for
the tuple, and for its entry. -/
theorem writes_atomic_pair :
    pairSession.RefusesBytes "pair" .whole pairType [1, 2] (.value (.sizeMismatch pairType 16 2)) ∧
    (∃ after,
      (execute (.setBytes "pair" .whole pairType swappedValue.bytes)).run pairSession =
        (.ok .done, after) ∧
      after.events = [.retain 48, .retain 32, .release 32, .release 48] ∧ NeverDips after.events) ∧
    ∃ (taken : List ReferenceEvent) (partly : Value), Value.tuple leafHierarchy unfitEntries =
        (.error (.unsizedType (.bitfield 0)),
          taken ++ partly.dropEvents ++ Value.dropEntries unfitEntries) ∧
      ∀ object, balance (taken ++ partly.dropEvents) object = 0 := by
  have found : pairSession.registers.lookup "pair" = some pairValue := List.lookup_cons_self
  have refused : pairValue.write pairSession.host.hierarchy .whole [1, 2] pairType =
      .error (.sizeMismatch pairType 16 2) := by cbv
  have written : pairValue.write pairSession.host.hierarchy .whole swappedValue.bytes pairType =
      .ok (swappedValue, [.retain 48, .retain 32, .release 32, .release 48]) := by cbv
  have unfit : Value.tuple leafHierarchy unfitEntries =
      (.error (.unsizedType (.bitfield 0)), [.retain 48, .release 48, .release 48]) := by cbv
  obtain ⟨writes, packs⟩ := writes_atomic
  refine ⟨?_, ?_, ?_⟩
  · have short : (execute (.setBytes "pair" .whole pairType [1, 2])).run pairSession =
        (.error (.value (.sizeMismatch pairType 16 2)), pairSession) := by
      simp only [execute, run_bind, run_update, found, refused]
    exact ((writes pairSession _ _ _ _).1 _ _ short).2
  · have swapped : (execute (.setBytes "pair" .whole pairType swappedValue.bytes)).run pairSession =
        (.ok .done, pairSession.afterUpdate "pair" swappedValue
          [.retain 48, .retain 32, .release 32, .release 48]) := by
      simp only [execute, run_bind, run_update, found, written]
      rfl
    obtain ⟨_, _, _, _, events, _, _, _, _, _, after_eq, never⟩ :=
      (writes pairSession _ _ _ _).2 _ _ swapped
    have same : [.retain 48, .retain 32, .release 32, .release 48] = events :=
      congrArg Session.events after_eq
    exact ⟨_, swapped, rfl, same ▸ never⟩
  · rcases packs _ _ _ _ unfit with ⟨missing, _⟩ |
      ⟨_, _, _, _, partly, taken, _, _, _, _, events_eq, settled⟩
    · have made : (Value.zeroed (Value.tupleType unfitEntries)).toOption.isSome := by cbv
      rw [missing] at made
      contradiction
    · exact ⟨taken, partly, events_eq ▸ unfit, settled⟩

end Session

end ForeignCall
