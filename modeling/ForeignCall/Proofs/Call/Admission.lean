import ForeignCall.Call.Invocation
import ForeignCall.Proofs.Cache.History

/-! # Admission to a call

A call is made only if six conditions hold (`Admitted`). They are checked one after the other
(`Check`, `checks`), and the first check that fails decides the error; what has been done up to then
leaves no trace (`invoke_once_iff_admitted`). To see the calls that are made, a callee is run with a
record of the plans it was called with.
-/

namespace ForeignCall

namespace Invocation

/-- A callee that also records the plans it is called with. -/
def recorded {σ : Type} (callee : CallPlan → σ → List UInt8 × σ) (plan : CallPlan)
    (state : List CallPlan × σ) : List UInt8 × (List CallPlan × σ) :=
  ((callee plan state.2).1, state.1 ++ [plan], (callee plan state.2).2)

/-- The address that a request names, or that the host knows for the method of a receiver; a null
receiver has no methods. -/
def entryAddress? (host : Host) (request : CallRequest) : Option Nat :=
  match request.entry, request.target with
  | .address address, _ => some address
  | .resolve, .method receiver selector =>
    if receiver = 0 then none else host.resolve receiver selector
  | .resolve, .function => none

/-- The conditions under which arguments of a type are passed on to a callee. -/
structure Admitted (host : Host) (settings : Settings) (cache : Cache) (arguments : CType)
    (request : CallRequest) : Prop where
  /-- The arguments are a complete structure. -/
  packed : ∃ name members, arguments = .aggregate .struct name members
  /-- A method is called with the signature of a method. -/
  method : request.target ≠ .function → request.signature.isMethod = true
  /-- The fields and the implicit arguments are as many as the signature declares. -/
  count : arguments.fields.length + request.target.implicitCount = request.signature.arguments.length
  /-- Each declared type accepts the type of the field in its position. -/
  accepted : ∀ position field parameter, arguments.fields[position]? = some field →
    request.signature.arguments[request.target.implicitCount + position]? = some parameter →
      parameter.type.accepts host.hierarchy field.type = true
  /-- There is code to call. -/
  resolved : ∃ address, entryAddress? host request = some address ∧ address ≠ 0
  /-- The cache has a descriptor of the signature, or one can be prepared. -/
  described : ∃ descriptor, (cache.get settings request.signature).1 = .ok descriptor

inductive Check where
  | argumentList
  | methodSignature
  | argumentCount
  /-- The type of the field at a position. -/
  | argumentType (position : Nat)
  | entryPoint
  | descriptor
  deriving DecidableEq, Repr

def argumentChecks (arguments : CType) : List Check :=
  .argumentList :: .methodSignature :: .argumentCount ::
    (List.range arguments.fields.length).map .argumentType

def checks (arguments : CType) : List Check :=
  argumentChecks arguments ++ [.entryPoint, .descriptor]

/-- The error of the field at a position, if the declared type does not accept it. -/
def mismatch? (host : Hierarchy) (implicitCount : Nat) (declared : List Parameter)
    (fields : List Field) (position : Nat) : Option ArgumentError :=
  match declared[position]?, fields[position]? with
  | some parameter, some field =>
    if parameter.type.accepts host field.type then none
    else some (.argumentType (implicitCount + position) parameter.type field.type)
  | _, _ => none

/-- The error of a check that fails, whether or not the checks before it do. -/
def Check.failure? (host : Host) (settings : Settings) (cache : Cache) (arguments : CType)
    (request : CallRequest) : Check → Option InvocationError
  | argumentList =>
    match arguments with
    | .aggregate .struct _ _ => none
    | _ => some (.arguments (.notAnArgumentList arguments))
  | methodSignature =>
    if request.target = .function ∨ request.signature.isMethod = true then none
    else some (.arguments (.notAMethodSignature request.signature.encoding))
  | argumentCount =>
    let actual := arguments.fields.length + request.target.implicitCount
    if actual = request.signature.arguments.length then none
    else some (.arguments (.argumentCount request.signature.arguments.length actual))
  | argumentType position =>
    (mismatch? host.hierarchy request.target.implicitCount
      (request.signature.arguments.drop request.target.implicitCount) arguments.fields position).map
        .arguments
  | entryPoint =>
    match entryAddress? host request with
    | some address =>
      if address = 0 then some (.resolution (request.target.selector?.map (·.name))) else none
    | none => some (.resolution (request.target.selector?.map (·.name)))
  | descriptor =>
    match (cache.get settings request.signature).1 with
    | .ok _ => none
    | .error error => some (.interface error)

def firstFailure? (host : Host) (settings : Settings) (cache : Cache) (arguments : CType)
    (request : CallRequest) : Option InvocationError :=
  (checks arguments).findSome? (Check.failure? host settings cache arguments request)

variable {host : Host} {settings : Settings} {cache : Cache} {arguments : CType}
  {request : CallRequest}

/-! ## Single checks -/

theorem argumentFields?_eq_some {fields : List Field} (found : argumentFields? arguments = some fields) :
    (∃ name members, arguments = .aggregate .struct name members) ∧ arguments.fields = fields := by
  unfold argumentFields? at found
  split at found
  next name members => exact ⟨⟨name, members, rfl⟩, by simpa [CType.fields, CType.fields?] using found⟩
  next => contradiction

theorem failure?_argumentList :
    Check.failure? host settings cache arguments request .argumentList =
      match argumentFields? arguments with
      | some _ => none
      | none => some (.arguments (.notAnArgumentList arguments)) := by
  cases arguments with
  | aggregate shape name members => cases shape <;> rfl
  | _ => rfl

theorem implicitCount_eq_zero_iff (target : Target) : target.implicitCount = 0 ↔ target = .function := by
  cases target <;> simp [Target.implicitCount]

/-- Types are compared position by position, and the first that is not accepted decides. -/
theorem checkTypes_eq (host : Hierarchy) (index : Nat) (declared : List Parameter)
    (fields : List Field) :
    checkTypes host index declared fields =
      match (List.range fields.length).findSome? (mismatch? host index declared fields) with
      | some error => .error error
      | none => .ok () := by
  induction fields generalizing index declared with
  | nil => cases declared <;> rfl
  | cons field fields ih =>
    cases declared with
    | nil =>
      have none : (List.range (field :: fields).length).findSome?
          (mismatch? host index [] (field :: fields)) = none := by
        simp [List.findSome?_eq_none_iff, mismatch?]
      rw [none]
      rfl
    | cons parameter declared =>
      have shift : (fun position =>
          mismatch? host index (parameter :: declared) (field :: fields) (position + 1)) =
          mismatch? host (index + 1) declared fields := by
        funext position
        simp only [mismatch?, List.getElem?_cons_succ, Nat.add_assoc, Nat.add_comm 1]
      rw [List.length_cons, List.range_succ_eq_map, List.findSome?_cons, List.findSome?_map]
      simp only [Function.comp_def, Nat.succ_eq_add_one, shift]
      cases accepted : parameter.type.accepts host field.type with
      | true =>
        have first : mismatch? host index (parameter :: declared) (field :: fields) 0 = none := by
          simp [mismatch?, accepted]
        rw [first]
        simp only [checkTypes, accepted, ↓reduceIte]
        exact ih (index + 1) declared
      | false =>
        have first : mismatch? host index (parameter :: declared) (field :: fields) 0 =
            some (.argumentType index parameter.type field.type) := by
          simp [mismatch?, accepted]
        rw [first]
        simp [checkTypes, accepted]

theorem mismatch?_eq_none_iff {hierarchy : Hierarchy} {implicitCount position : Nat}
    {declared : List Parameter} {fields : List Field} :
    mismatch? hierarchy implicitCount declared fields position = none ↔
      ∀ field parameter, fields[position]? = some field → declared[position]? = some parameter →
        parameter.type.accepts hierarchy field.type = true := by
  unfold mismatch?
  cases declared[position]? with
  | none => simp
  | some parameter =>
    cases fields[position]? with
    | none => simp
    | some field => simp

theorem resolve_eq (host : Host) (request : CallRequest) :
    resolve host request.target request.entry =
      match entryAddress? host request with
      | some address =>
        if address = 0 then .error (.resolution (request.target.selector?.map (·.name)))
        else .ok address
      | none => .error (.resolution (request.target.selector?.map (·.name))) := by
  rfl

/-! ## All checks -/

/-- Validation runs the checks of the arguments. -/
theorem validate_eq (host : Host) (settings : Settings) (cache : Cache) (arguments : CType)
    (request : CallRequest) :
    (validate host.hierarchy arguments request.signature request.target).mapError .arguments =
      match (argumentChecks arguments).findSome?
        (Check.failure? host settings cache arguments request) with
      | some error => .error error
      | none => .ok arguments.fields := by
  simp only [validate, argumentChecks, List.findSome?_cons, failure?_argumentList]
  cases found : argumentFields? arguments with
  | none => rfl
  | some fields =>
    obtain ⟨_, rfl⟩ := argumentFields?_eq_some found
    by_cases isMethod : request.target = .function ∨ request.signature.isMethod = true
    case neg =>
      obtain ⟨notFunction, notMethod⟩ := not_or.mp isMethod
      have implicit := mt (implicitCount_eq_zero_iff request.target).mp notFunction
      simp [Check.failure?, notFunction, implicit, notMethod, Except.mapError]
    case pos =>
      have passes : ¬(decide (request.target.implicitCount ≠ 0) && !request.signature.isMethod) = true := by
        rcases isMethod with isFunction | isMethod
        · simp [implicitCount_eq_zero_iff, isFunction]
        · simp [isMethod]
      simp only [if_neg passes, Check.failure?, if_pos isMethod]
      by_cases count : arguments.fields.length + request.target.implicitCount =
          request.signature.arguments.length
      case neg => simp [Ne.symm count, count, Except.mapError]
      case pos =>
        rw [if_neg (not_not_intro count.symm), if_pos count, checkTypes_eq, List.findSome?_map]
        have types : Check.failure? host settings cache arguments request ∘ Check.argumentType =
            Option.map InvocationError.arguments ∘ mismatch? host.hierarchy
              request.target.implicitCount
              (request.signature.arguments.drop request.target.implicitCount) arguments.fields := rfl
        rw [types, ← List.map_findSome?]
        cases (List.range arguments.fields.length).findSome? _ <;> rfl

/-- A request is admitted exactly when no check fails. -/
theorem admitted_iff : Admitted host settings cache arguments request ↔
    firstFailure? host settings cache arguments request = none := by
  have packed : Check.failure? host settings cache arguments request .argumentList = none ↔
      ∃ name members, arguments = .aggregate .struct name members := by
    rw [failure?_argumentList]
    constructor
    · intro passes
      cases found : argumentFields? arguments with
      | some fields => exact (argumentFields?_eq_some found).1
      | none => simp [found] at passes
    · rintro ⟨name, members, rfl⟩
      rfl
  have method : Check.failure? host settings cache arguments request .methodSignature = none ↔
      (request.target ≠ .function → request.signature.isMethod = true) := by
    simp [Check.failure?, or_iff_not_imp_left]
  have count : Check.failure? host settings cache arguments request .argumentCount = none ↔
      arguments.fields.length + request.target.implicitCount = request.signature.arguments.length := by
    simp [Check.failure?]
  have accepted : (∀ position < arguments.fields.length,
      Check.failure? host settings cache arguments request (.argumentType position) = none) ↔
      ∀ position field parameter, arguments.fields[position]? = some field →
        request.signature.arguments[request.target.implicitCount + position]? = some parameter →
          parameter.type.accepts host.hierarchy field.type = true := by
    simp only [Check.failure?, Option.map_eq_none_iff, mismatch?_eq_none_iff, List.getElem?_drop]
    constructor
    · intro passes position field parameter atPosition
      exact passes position (List.getElem?_eq_some_iff.mp atPosition).1 field parameter atPosition
    · intro passes position _
      exact passes position
  have resolved : Check.failure? host settings cache arguments request .entryPoint = none ↔
      ∃ address, entryAddress? host request = some address ∧ address ≠ 0 := by
    cases found : entryAddress? host request with
    | none => simp [Check.failure?, found]
    | some address => simp [Check.failure?, found]
  have described : Check.failure? host settings cache arguments request .descriptor = none ↔
      ∃ descriptor, (cache.get settings request.signature).1 = .ok descriptor := by
    cases got : (cache.get settings request.signature).1 <;> simp [Check.failure?, got]
  have all : firstFailure? host settings cache arguments request = none ↔
      Check.failure? host settings cache arguments request .argumentList = none ∧
      Check.failure? host settings cache arguments request .methodSignature = none ∧
      Check.failure? host settings cache arguments request .argumentCount = none ∧
      (∀ position < arguments.fields.length,
        Check.failure? host settings cache arguments request (.argumentType position) = none) ∧
      Check.failure? host settings cache arguments request .entryPoint = none ∧
      Check.failure? host settings cache arguments request .descriptor = none := by
    simp [firstFailure?, checks, argumentChecks, List.findSome?_eq_none_iff, or_imp, forall_and]
  rw [all, packed, method, count, accepted, resolved, described]
  constructor
  · intro admitted
    exact ⟨admitted.packed, admitted.method, admitted.count, admitted.accepted, admitted.resolved,
      admitted.described⟩
  · rintro ⟨packed, method, count, accepted, resolved, described⟩
    exact ⟨packed, method, count, accepted, resolved, described⟩

/-! ## Plans -/

/-- The buffer of the result can be allocated, whatever descriptor the call gets. -/
def GrantsResult (settings : Settings) (cache : Cache) (request : CallRequest) : Prop :=
  ∀ descriptor, (cache.get settings request.signature).1 = .ok descriptor →
    resultStorage descriptor.returnLayout < allocationLimit

/-- Validation either fails with the first failing check of the arguments, or all of these pass. -/
theorem validate_cases (host : Host) (settings : Settings) (cache : Cache) (arguments : CType)
    (request : CallRequest) :
    (∃ error, validate host.hierarchy arguments request.signature request.target = .error error ∧
      (argumentChecks arguments).findSome? (Check.failure? host settings cache arguments request) =
        some (.arguments error)) ∨
    (validate host.hierarchy arguments request.signature request.target = .ok arguments.fields ∧
      (argumentChecks arguments).findSome? (Check.failure? host settings cache arguments request) =
        none) := by
  have equation := validate_eq host settings cache arguments request
  cases first : (argumentChecks arguments).findSome?
      (Check.failure? host settings cache arguments request) with
  | some error =>
    cases valid : validate host.hierarchy arguments request.signature request.target with
    | error refused =>
      simp only [valid, first, Except.mapError, Except.error.injEq] at equation
      exact .inl ⟨refused, rfl, by rw [equation]⟩
    | ok fields => simp [valid, first, Except.mapError] at equation
  | none =>
    cases valid : validate host.hierarchy arguments request.signature request.target with
    | error refused => simp [valid, first, Except.mapError] at equation
    | ok fields =>
      simp only [valid, first, Except.mapError, Except.ok.injEq] at equation
      exact .inr ⟨by rw [equation], rfl⟩

/-- The first failing check ends the planning of a call and leaves the cache as it was; if none fails,
the call is planned, provided that the result has room. -/
theorem plan_eq (host : Host) (settings : Settings) (cache : Cache) (invocation : Invocation)
    (request : CallRequest) :
    (∃ error, firstFailure? host settings cache invocation.arguments.type request = some error ∧
      plan host settings cache invocation request = (.error error, cache)) ∨
    ∃ address descriptor,
      firstFailure? host settings cache invocation.arguments.type request = none ∧
      (cache.get settings request.signature).1 = .ok descriptor ∧
      plan host settings cache invocation request =
        (if resultStorage descriptor.returnLayout < allocationLimit then
          .ok ⟨address, descriptor, pointers request.target invocation.arguments.type.fields⟩
        else .error (.interface (.unsupportedType request.signature.result.type)),
          (cache.get settings request.signature).2) := by
  simp only [firstFailure?, checks, List.findSome?_append, plan]
  rcases validate_cases host settings cache invocation.arguments.type request with
    ⟨refused, valid, first⟩ | ⟨valid, first⟩
  · rw [valid, first]
    exact .inl ⟨_, rfl, rfl⟩
  rw [valid, first, Option.none_or, resolve_eq]
  simp only [List.findSome?_cons, List.findSome?_nil, Check.failure?]
  cases entryAddress? host request with
  | none => exact .inl ⟨_, rfl, rfl⟩
  | some address =>
    by_cases isNull : address = 0
    · simp only [if_pos isNull]
      exact .inl ⟨_, rfl, rfl⟩
    simp only [if_neg isNull]
    cases got : (cache.get settings request.signature).1 with
    | error error =>
      rw [Cache.get_of_error got]
      exact .inl ⟨_, rfl, rfl⟩
    | ok descriptor =>
      have pair : cache.get settings request.signature =
          (.ok descriptor, (cache.get settings request.signature).2) := by rw [← got]
      rw [pair]
      refine .inr ⟨address, descriptor, rfl, rfl, ?_⟩
      dsimp only
      split <;> rfl

/-- With room for the result, a call is planned exactly if no check fails. -/
theorem plan_cases (host : Host) (invocation : Invocation) (granted : GrantsResult settings cache request) :
    (∃ error, firstFailure? host settings cache invocation.arguments.type request = some error ∧
      plan host settings cache invocation request = (.error error, cache)) ∨
    ∃ made : CallPlan,
      firstFailure? host settings cache invocation.arguments.type request = none ∧
      plan host settings cache invocation request =
        (.ok made, (cache.get settings request.signature).2) := by
  rcases plan_eq host settings cache invocation request with failed | ⟨_, _, passed, got, planned⟩
  · exact .inl failed
  · rw [if_pos (granted _ got)] at planned
    exact .inr ⟨_, passed, planned⟩

/-! ## Calls -/

/-- A call is made exactly if the request is admitted, and then once. Otherwise the first failing check
gives the error, and neither references nor the cache nor anything that a callee could change has
been touched. -/
theorem invoke_once_iff_admitted {σ : Type} (callee : CallPlan → σ → List UInt8 × σ) (host : Host)
    (settings : Settings) (cache : Cache) (invocation : Invocation) (request : CallRequest)
    (calls : List CallPlan) (state : σ) (granted : GrantsResult settings cache request) :
    let arguments := invocation.arguments.type
    let outcome := invoke (recorded callee) host settings cache invocation request (calls, state)
    (Admitted host settings cache arguments request ↔
      ∃ made, outcome.state = (calls ++ [made], (callee made state).2)) ∧
    (Admitted host settings cache arguments request ↔
      firstFailure? host settings cache arguments request = none) ∧
    ∀ error, firstFailure? host settings cache arguments request = some error →
      outcome = ⟨.error error, [], cache, calls, state⟩ := by
  intro arguments outcome
  have admitted_iff : Admitted host settings cache arguments request ↔
      firstFailure? host settings cache arguments request = none := admitted_iff
  rcases plan_cases host invocation granted with ⟨error, failed, planned⟩ | ⟨made, passed, planned⟩
  · have refused : outcome = ⟨.error error, [], cache, calls, state⟩ := by
      simp only [outcome, invoke, planned]
    refine ⟨?_, admitted_iff, ?_⟩
    · rw [admitted_iff, failed, refused]
      simp
    · intro other same
      rw [failed, Option.some.injEq] at same
      rw [refused, same]
  · have called : outcome.state = (calls ++ [made], (callee made state).2) := by
      simp only [outcome, invoke, planned, recorded]
      split <;> rfl
    refine ⟨?_, admitted_iff, ?_⟩
    · rw [admitted_iff, passed, called]
      simp
    · intro error failed
      rw [passed] at failed
      contradiction

/-- A method with one number, sent to an object whose host knows an implementation. -/
def touchRequest : CallRequest :=
  ⟨.method .void [.scalar .int], .method 16 ⟨"touch:"⟩, .resolve⟩

def touchInvocation : Invocation :=
  ⟨⟨.aggregate .struct none [.ofType none (.scalar .int)], [7, 0, 0, 0], by decide⟩, none⟩

def countCalls (_ : CallPlan) (count : Nat) : List UInt8 × Nat := ([], count + 1)

/-- The method is called once if the host resolves it, and not at all if the host does not. -/
theorem invoke_once_iff_admitted_touch :
    GrantsResult {} (.ofCapacity 1) touchRequest ∧
      (∃ made, (invoke (recorded countCalls) ⟨.flat, fun _ _ => some 64⟩ {} (.ofCapacity 1)
        touchInvocation touchRequest ([], 0)).state = ([made], 1)) ∧
      invoke (recorded countCalls) .detached {} (.ofCapacity 1) touchInvocation touchRequest ([], 0) =
        ⟨.error (.resolution (some "touch:")), [], .ofCapacity 1, [], 0⟩ := by
  have granted : GrantsResult {} (.ofCapacity 1) touchRequest := by
    intro descriptor got
    have prepared : ((Cache.ofCapacity 1).get {} touchRequest.signature).1 =
        .ok ⟨[.pointer, .pointer, .integer true 4], .void, .empty, false⟩ := by cbv
    rw [prepared] at got
    cases got
    decide
  have passed : firstFailure? ⟨.flat, fun _ _ => some 64⟩ {} (.ofCapacity 1)
      touchInvocation.arguments.type touchRequest = none := by cbv
  have failed : firstFailure? .detached {} (.ofCapacity 1) touchInvocation.arguments.type touchRequest =
      some (.resolution (some "touch:")) := by cbv
  have resolved := invoke_once_iff_admitted countCalls ⟨.flat, fun _ _ => some 64⟩ {} (.ofCapacity 1)
    touchInvocation touchRequest [] 0 granted
  have unresolved := invoke_once_iff_admitted countCalls .detached {} (.ofCapacity 1)
    touchInvocation touchRequest [] 0 granted
  obtain ⟨made, called⟩ := resolved.1.mp (resolved.2.1.mpr passed)
  exact ⟨granted, ⟨made, called⟩, unresolved.2.2 _ failed⟩

end Invocation

end ForeignCall
