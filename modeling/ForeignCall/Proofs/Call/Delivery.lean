import ForeignCall.Proofs.Acceptance.Representation
import ForeignCall.Proofs.Cache.Following
import ForeignCall.Proofs.Call.Admission
import ForeignCall.Proofs.Call.Preparation
import ForeignCall.Proofs.Value.Packing

/-! # Delivery of arguments

What a callee sees of packed entries (`Delivers`). The descriptor that a cache hands out was prepared
for the signature, so every declared type has an element. Such a type is neither a bitfield nor an
array, and accepts only types of its own layout. So each entry lies in the bytes that the declared
type asks for, and the result is cut from as many bytes as the signature returns
(`callee_sees_packed_entries`).
-/

namespace ForeignCall

/-- A type with an element takes bytes of its own as a member of a structure. -/
theorem CType.footprint_of_element {type : CType} {element : Element} {layout : Layout}
    (found : type.element = .ok element) (known : type.layout? = some layout) :
    type.footprint = .bytes layout := by
  rw [footprint, known]
  cases type <;> first | rfl | contradiction

namespace Invocation

variable {host : Host} {settings : Settings} {cache after : Cache} {invocation : Invocation}
  {request : CallRequest} {made : CallPlan} {packed : Value} {entries : List Entry}

/-- A call that is planned is admitted, and is planned with a descriptor from the cache. -/
theorem plan_eq_ok (planned : plan host settings cache invocation request = (.ok made, after)) :
    Admitted host settings cache invocation.arguments.type request ∧
      (cache.get settings request.signature).1 = .ok made.descriptor ∧
      made.pointers = pointers request.target invocation.arguments.type.fields ∧
      resultStorage made.descriptor.returnLayout < allocationLimit := by
  rcases plan_eq host settings cache invocation request with ⟨_, _, failed⟩ |
    ⟨address, descriptor, passed, got, granted⟩
  · rw [failed] at planned
    cases planned
  · rw [granted] at planned
    split at planned
    next room =>
      cases planned
      exact ⟨admitted_iff.mpr passed, got, rfl, room⟩
    next => cases planned

/-! ## Arguments -/

/-- The callee sees the receiver and the selector of a method, and then the packed entries: each in
the bytes of its declared type, inside the argument buffer, aligned as the type asks for, and apart
from the others. -/
structure Delivers (packed : Value) (entries : List Entry) (request : CallRequest)
    (made : CallPlan) : Prop where
  count : made.pointers.length = made.descriptor.argumentCount
  declared : request.signature.arguments.length = request.target.implicitCount + entries.length
  implicit : ∀ receiver selector, request.target = .method receiver selector →
    made.pointers.take 2 = [.receiver receiver, .selector selector]
  explicit : ∀ position entry parameter, entries[position]? = some entry →
    request.signature.arguments[request.target.implicitCount + position]? = some parameter →
      ∃ offset, made.pointers[request.target.implicitCount + position]? = some (.buffer offset) ∧
        offset + parameter.type.size ≤ packed.bytes.length ∧
        (∀ base, packed.type.alignment ∣ base → parameter.type.alignment ∣ base + offset) ∧
        ∀ selectorAddress, (ArgumentPointer.buffer offset).load packed selectorAddress
          parameter.type.size = entry.value.bytes
  apart : ∀ first second left right parameter, first < second →
    made.pointers[request.target.implicitCount + first]? = some (.buffer left) →
    made.pointers[request.target.implicitCount + second]? = some (.buffer right) →
    request.signature.arguments[request.target.implicitCount + first]? = some parameter →
      left + parameter.type.size ≤ right

theorem length_pointers (target : Target) (fields : List Field) :
    (pointers target fields).length = target.implicitCount + fields.length := by
  cases target with
  | function => simp [pointers, Target.implicitCount]
  | method receiver selector => simp [pointers, Target.implicitCount, Nat.add_comm 2]

theorem getElem?_pointers (target : Target) (fields : List Field) (position : Nat) :
    (pointers target fields)[target.implicitCount + position]? =
      fields[position]?.map fun field => .buffer (field.offset?.getD 0) := by
  cases target with
  | function => simp [pointers, Target.implicitCount]
  | method receiver selector =>
    rw [Target.implicitCount, Nat.add_comm]
    simp [pointers]

/-- A declared type that a call passes takes as many bytes as a type that it accepts, in bytes of its
own. -/
theorem representation_of_declared {signature : Signature} {descriptor : Descriptor}
    {hierarchy : Hierarchy} {index : Nat} {parameter : Parameter} {source : Value}
    (described : descriptor.Describes signature)
    (isDeclared : signature.arguments[index]? = some parameter)
    (accepted : parameter.type.accepts hierarchy source.type = true) :
    parameter.type.size = source.bytes.length ∧ parameter.type.alignment = source.type.alignment ∧
      ∃ layout, source.type.footprint = .bytes layout := by
  obtain ⟨layout_eq, _, element_eq⟩ := CType.representation_of_accepts accepted
  obtain ⟨element, found⟩ := described.exists_element (List.mem_of_getElem? isDeclared)
  obtain ⟨layout, known, size⟩ := Option.map_eq_some_iff.mp source.size_eq
  refine ⟨?_, by rw [CType.alignment, CType.alignment, layout_eq], layout, ?_⟩
  · rw [CType.size, layout_eq, source.size_eq, Option.getD_some]
  · exact CType.footprint_of_element (element_eq.symm.trans found) known

/-- What is planned for packed entries delivers them. -/
theorem delivers_of_admitted {packHost : Hierarchy} {cache : Cache}
    (packing : (Value.tuple packHost entries).1 = .ok packed)
    (admitted : Admitted host settings cache packed.type request)
    (described : made.descriptor.Describes request.signature)
    (pointers_eq : made.pointers = pointers request.target packed.type.fields) :
    Delivers packed entries request made := by
  have fields_eq : packed.type.fields.length = entries.length := by
    simpa using congrArg List.length (Value.fields_of_tuple packing)
  have count := admitted.count
  -- The declared type in the position of an entry has the size and the alignment of the entry.
  have represents : ∀ {position entry parameter}, entries[position]? = some entry →
      request.signature.arguments[request.target.implicitCount + position]? = some parameter →
        ∃ field, packed.type.fields[position]? = some field ∧
          parameter.type.size = entry.value.bytes.length ∧
          parameter.type.alignment = entry.value.type.alignment ∧
          ∃ layout, entry.value.type.footprint = .bytes layout := by
    intro position entry parameter present isDeclared
    have inside : position < packed.type.fields.length :=
      fields_eq ▸ (List.getElem?_eq_some_iff.mp present).1
    have isField := List.getElem?_eq_getElem inside
    have accepted := admitted.accepted _ _ _ isField isDeclared
    rw [Value.type_of_field packing present isField] at accepted
    exact ⟨_, isField, representation_of_declared described isDeclared accepted⟩
  refine ⟨?_, by omega, ?_, ?_, ?_⟩
  · rw [pointers_eq, length_pointers, described.argumentCount_eq]
    omega
  · rintro receiver selector isMethod
    rw [pointers_eq, isMethod]
    rfl
  · intro position entry parameter present isDeclared
    obtain ⟨field, isField, size, alignment, layout, ordinary⟩ := represents present isDeclared
    obtain ⟨offset, offset_eq, holds⟩ := Value.holdsAt_of_tuple packing present isField ordinary
    refine ⟨offset, ?_, ?_, ?_, ?_⟩
    · rw [pointers_eq, getElem?_pointers, isField, Option.map_some, offset_eq, Option.getD_some]
    · rw [size]
      exact holds.inside
    · rw [alignment]
      exact holds.aligned
    · intro _
      rw [ArgumentPointer.load, size]
      exact holds.bytes_eq
  · intro first second left right parameter less isLeft isRight isDeclared
    rw [pointers_eq, getElem?_pointers] at isLeft isRight
    obtain ⟨field, isField, isLeft⟩ := Option.map_eq_some_iff.mp isLeft
    obtain ⟨field', isField', isRight⟩ := Option.map_eq_some_iff.mp isRight
    cases isLeft
    cases isRight
    have inside := (List.getElem?_eq_some_iff.mp isField').1
    have isFirst := List.getElem?_eq_getElem (show first < entries.length by omega)
    have isSecond := List.getElem?_eq_getElem (show second < entries.length by omega)
    have isDeclared' := List.getElem?_eq_getElem
      (show request.target.implicitCount + second < request.signature.arguments.length by omega)
    obtain ⟨_, _, size, _, _, ordinary⟩ := represents isFirst isDeclared
    obtain ⟨_, _, _, _, _, ordinary'⟩ := represents isSecond isDeclared'
    rw [size]
    exact Value.apart_of_tuple packing less isFirst isSecond isField isField' ordinary ordinary'

/-! ## Results -/

theorem exists_adopt {type : CType} {bytes : List UInt8} {layout : Layout}
    (known : type.layout? = some layout) (small : layout.size < allocationLimit)
    (length : bytes.length = layout.size) :
    ∃ value, Value.adopt type bytes = .ok value ∧ value.bytes = bytes := by
  unfold Value.adopt
  split
  next absent => cases absent.symm.trans known
  next other same =>
    cases same.symm.trans known
    rw [if_pos small, dif_pos length]
    exact ⟨_, rfl, rfl⟩

/-- The result of a call has the first bytes that the callee produced, as many as the signature
returns. Missing ones are zero. -/
theorem exists_finish {descriptor : Descriptor} (invocation : Invocation) (result : List UInt8)
    (described : descriptor.Describes request.signature)
    (granted : resultStorage descriptor.returnLayout < allocationLimit) :
    ∃ value events, finish invocation request result = .ok (value, events) ∧
      value.bytes = (result ++ Bytes.zeros (descriptor.returnLayout.size - result.length)).take
        descriptor.returnLayout.size := by
  rcases described.returnLayout_cases with ⟨isVoid, layout_eq⟩ | ⟨isValue, known⟩
  · refine ⟨.void, [], ?_, by simp [layout_eq, Layout.empty, Value.void]⟩
    simp only [finish, isVoid, if_true]
  · have size_eq : request.signature.result.type.size = descriptor.returnLayout.size := by
      rw [CType.size, known, Option.map_some, Option.getD_some]
    have small : descriptor.returnLayout.size < allocationLimit :=
      Nat.lt_of_le_of_lt (Nat.le_max_left _ _) granted
    have length : ((result ++ Bytes.zeros (descriptor.returnLayout.size - result.length)).take
        descriptor.returnLayout.size).length = descriptor.returnLayout.size := by
      rw [List.length_take, List.length_append, Bytes.length_zeros]
      omega
    simp only [finish, isValue, Bool.false_eq_true, if_false, size_eq]
    generalize (result ++ _).take _ = bytes at length ⊢
    obtain ⟨value, adopted, bytes_eq⟩ := exists_adopt known small length
    cases invocation.ownership request.target with
    | unretained =>
      refine ⟨value, retainSlots bytes request.signature.result.type.ownedSlots, ?_, bytes_eq⟩
      simp only [Value.new, adopted]
      rfl
    | retained =>
      refine ⟨value, [], ?_, bytes_eq⟩
      simp only [adopted]
      rfl

/-! ## Calls -/

/-- A call that is planned is recorded once. -/
theorem calls_of_planned {σ : Type} {callee : CallPlan → σ → List UInt8 × σ} {state : σ}
    (planned : plan host settings cache invocation request = (.ok made, after)) :
    (invoke (recorded callee) host settings cache invocation request ([], state)).state.1 = [made] := by
  simp only [invoke, planned, recorded]
  split <;> rfl

/-- Whenever the call of packed entries is reached, with any cache that was new before and whatever
happened to it since, the callee is delivered the entries, and the call gives the first bytes that the
callee produced. -/
theorem callee_sees_packed_entries {σ : Type} (callee : CallPlan → σ → List UInt8 × σ)
    (packHost : Hierarchy) (entries : List Entry) (packed : Value) (host : Host)
    (before : ConfiguredCache) (events : List CacheEvent) (returns : Option ReturnOwnership)
    (request : CallRequest) (state : σ) (made : CallPlan) (isNew : before.cache.IsNew)
    (packing : (Value.tuple packHost entries).1 = .ok packed)
    (called : made ∈ (invoke (recorded callee) host (before.run events).settings
      (before.run events).cache ⟨packed, returns⟩ request ([], state)).state.1) :
    Delivers packed entries request made ∧
      ∃ value, (invoke (recorded callee) host (before.run events).settings (before.run events).cache
          ⟨packed, returns⟩ request ([], state)).result = .ok value ∧
        value.bytes = ((callee made state).1 ++ Bytes.zeros
            (made.descriptor.returnLayout.size - (callee made state).1.length)).take
          made.descriptor.returnLayout.size := by
  have faithful := ConfiguredCache.isFaithful_run isNew.isFaithful events
  rcases planned : plan host (before.run events).settings (before.run events).cache
    ⟨packed, returns⟩ request with ⟨error | plan, after⟩
  · simp [invoke, planned] at called
  · rw [calls_of_planned planned, List.mem_singleton] at called
    subst called
    obtain ⟨admitted, got, pointers_eq, granted⟩ := plan_eq_ok planned
    obtain ⟨_, prepared⟩ := faithful.prepared_of_get got
    have described := (Descriptor.prepare_eq_ok_iff.mp prepared).1
    refine ⟨delivers_of_admitted packing admitted described pointers_eq, ?_⟩
    obtain ⟨value, _, finished, bytes_eq⟩ :=
      exists_finish ⟨packed, returns⟩ (callee made state).1 described granted
    refine ⟨value, ?_, bytes_eq⟩
    simp only [invoke, planned, recorded, finished]

/-- A method of a constant character and any object. -/
def placeRequest : CallRequest :=
  ⟨.method (.scalar .short) [.wrapped .const (.scalar .char), .object none []],
    .method 16 ⟨"place:at:"⟩, .resolve⟩

/-- A character and an object of a class. -/
def placeEntries : List Entry :=
  [⟨none, ⟨.scalar .char, [5], by decide⟩⟩,
    ⟨none, ⟨.object (some "Leaf") [], [0, 16, 0, 0, 0, 0, 0, 0], by decide⟩⟩]

/-- The character, padding and the object. -/
def placePacked : Value :=
  ⟨Value.tupleType placeEntries, [5, 0, 0, 0, 0, 0, 0, 0, 0, 16, 0, 0, 0, 0, 0, 0], by decide⟩

/-- A callee that produces more bytes than it returns. -/
def produceThree (_ : CallPlan) (_ : Unit) : List UInt8 × Unit := ([1, 2, 3], ())

theorem callee_sees_packed_entries_place :
    (Value.tuple .flat placeEntries).1 = .ok placePacked ∧
      ∃ made, made ∈ (invoke (recorded produceThree) ⟨.flat, fun _ _ => some 64⟩ {} (.following {})
          ⟨placePacked, none⟩ placeRequest ([], ())).state.1 ∧
        Delivers placePacked placeEntries placeRequest made ∧
          ∃ value, (invoke (recorded produceThree) ⟨.flat, fun _ _ => some 64⟩ {} (.following {})
            ⟨placePacked, none⟩ placeRequest ([], ())).result = .ok value ∧ value.bytes = [1, 2] := by
  have packing : (Value.tuple .flat placeEntries).1 = .ok placePacked := by cbv
  have planned : (plan ⟨.flat, fun _ _ => some 64⟩ {} (.following {}) ⟨placePacked, none⟩
      placeRequest).1 =
        .ok ⟨64, ⟨[.pointer, .pointer, .integer true 1, .pointer], .integer true 2, ⟨2, 2⟩, false⟩,
          [.receiver 16, .selector ⟨"place:at:"⟩, .buffer 0, .buffer 8]⟩ := by cbv
  have called : (invoke (recorded produceThree) ⟨.flat, fun _ _ => some 64⟩ {} (.following {})
      ⟨placePacked, none⟩ placeRequest ([], ())).state.1 = [_] :=
    calls_of_planned (Prod.ext planned rfl)
  have present := List.mem_of_mem_head? (congrArg List.head? called)
  obtain ⟨delivers, value, result, bytes_eq⟩ := callee_sees_packed_entries produceThree .flat
    placeEntries placePacked ⟨.flat, fun _ _ => some 64⟩ (.following {}) [] none placeRequest () _
    (.following {}) packing present
  exact ⟨packing, _, present, delivers, value, result, bytes_eq⟩

end Invocation

end ForeignCall
