import ForeignCall.Proofs.Call.Delivery
import ForeignCall.Proofs.Ownership.Values

/-! # Returned references

The value that a call gives owns each of its references once, whoever took it. By the convention of a
call (`Convention`) the callee either hands its references over, and the caller takes none, or keeps
them, and the caller takes one for every slot that is not null (`Returns`). Either way the end of the
value drops what the two have taken, so a call and the end of its result leave no trace in any count
(`Invocation.returned_references_owned_once`).
-/

namespace ForeignCall

/-! ## Conventions -/

/-- A name of a family of methods: underscores, the word of the family, and what begins with no
lower-case letter. -/
inductive InFamily (family : List Char) : List Char → Prop where
  | intro {underscores rest : List Char} (ignored : ∀ c ∈ underscores, c = '_')
    (ends : ∀ c, rest.head? = some c → c.isLower = false) :
    InFamily family (underscores ++ (family ++ rest))

/-- The convention of a call: the chosen one, or else for a method that of its family; a function keeps
what it returns. -/
inductive Convention : Option ReturnOwnership → Target → ReturnOwnership → Prop where
  | chosen {convention : ReturnOwnership} {target : Target} :
    Convention (some convention) target convention
  | retained {receiver : Nat} {selector : Selector} {family : String}
    (isFamily : family ∈ ReturnOwnership.retainedFamilies)
    (belongs : InFamily family.toList selector.name.toList) :
    Convention none (.method receiver selector) .retained
  | unretained {receiver : Nat} {selector : Selector}
    (outside : ∀ family ∈ ReturnOwnership.retainedFamilies,
      ¬InFamily family.toList selector.name.toList) :
    Convention none (.method receiver selector) .unretained
  | function : Convention none .function .unretained

namespace ReturnOwnership

theorem belongsTo_iff {family name : List Char} (begins : ∃ c, family.head? = some c ∧ c ≠ '_') :
    belongsTo (name.dropWhile (· = '_')) family = true ↔ InFamily family name := by
  simp only [belongsTo, Bool.and_eq_true, List.isPrefixOf_iff_prefix, Bool.not_eq_true']
  constructor
  · rintro ⟨⟨rest, word_eq⟩, ends⟩
    rw [← word_eq, List.drop_left] at ends
    rw [← List.takeWhile_append_dropWhile (p := (· = '_')) (l := name), ← word_eq]
    refine .intro (fun c present => ?_) (fun c first => ?_)
    · simpa using List.all_eq_true.mp List.all_takeWhile c present
    · simpa [first] using ends
  · rintro @⟨underscores, rest, ignored, ends⟩
    obtain ⟨c, first, different⟩ := begins
    obtain ⟨others, rfl⟩ := List.head?_eq_some_iff.mp first
    have word_eq : (underscores ++ (c :: others ++ rest)).dropWhile (· = '_') = c :: others ++ rest := by
      rw [List.dropWhile_append_of_pos (by simpa using ignored), List.cons_append,
        List.dropWhile_cons_of_neg (by simpa using different)]
    rw [word_eq, List.drop_left]
    refine ⟨List.prefix_append _ _, ?_⟩
    cases rest with
    | nil => rfl
    | cons next rest => exact ends next rfl

/-- A name hands its result over if it belongs to one of the families. -/
theorem ofName_eq_retained_iff {name : String} :
    ofName name = .retained ↔ ∃ family ∈ retainedFamilies, InFamily family.toList name.toList := by
  have begins : ∀ family ∈ retainedFamilies, ∃ c, family.toList.head? = some c ∧ c ≠ '_' := by
    simp [retainedFamilies]
  have belongs : (retainedFamilies.any fun family =>
      belongsTo (name.toList.dropWhile (· = '_')) family.toList) = true ↔
        ∃ family ∈ retainedFamilies, InFamily family.toList name.toList := by
    rw [List.any_eq_true]
    exact exists_congr fun family => and_congr_right fun isFamily => belongsTo_iff (begins family isFamily)
  rw [← belongs, ofName]
  split <;> simp [*]

theorem ofName_eq_unretained_iff {name : String} :
    ofName name = .unretained ↔ ∀ family ∈ retainedFamilies, ¬InFamily family.toList name.toList := by
  have other : ofName name = .unretained ↔ ¬ofName name = .retained := by
    cases ofName name <;> simp
  rw [other, ofName_eq_retained_iff]
  simp

-- The word of a family may begin another word, but not run on.
example : ofName "__copyItem" = .retained := by decide
example : ofName "copying" = .unretained := by decide

end ReturnOwnership

/-- The convention of a call is the one that decides who owns its result. -/
theorem convention_iff {invocation : Invocation} {target : Target} {convention : ReturnOwnership} :
    Convention invocation.returns target convention ↔ invocation.ownership target = convention := by
  obtain ⟨arguments, returns⟩ := invocation
  constructor
  · intro isConvention
    cases isConvention with
    | chosen => rfl
    | retained isFamily belongs =>
      exact ReturnOwnership.ofName_eq_retained_iff.mpr ⟨_, isFamily, belongs⟩
    | unretained outside => exact ReturnOwnership.ofName_eq_unretained_iff.mpr outside
    | function => rfl
  · rintro rfl
    cases returns with
    | some convention => exact .chosen
    | none =>
      cases target with
      | function => exact .function
      | method receiver selector =>
        show Convention none _ (.ofSelector selector)
        cases isFamily : ReturnOwnership.ofSelector selector with
        | retained =>
          obtain ⟨family, isFamily, belongs⟩ := ReturnOwnership.ofName_eq_retained_iff.mp isFamily
          exact .retained isFamily belongs
        | unretained => exact .unretained (ReturnOwnership.ofName_eq_unretained_iff.mp isFamily)

/-! ## Results -/

/-- How many of the references in a result the callee hands over. -/
def ReturnOwnership.handed (convention : ReturnOwnership) (references : Nat) : Nat :=
  match convention with
  | retained => references
  | unretained => 0

/-- What a call gives its caller for the bytes that the callee produced: nothing if it returns nothing,
and otherwise a value of the returned type, with a reference taken for every owned slot that is not
null if the callee kept its own, and none if it handed them over. -/
structure Returns (type : CType) (convention : ReturnOwnership) (produced : List UInt8) (value : Value)
    (events : List ReferenceEvent) : Prop where
  void : type.unqualified.isVoid = true → value = .void ∧ events = []
  type_eq : type.unqualified.isVoid = false → value.type = type
  bytes_eq : type.unqualified.isVoid = false → value.bytes =
    (produced ++ Bytes.zeros (type.size - produced.length)).take type.size
  unretained : type.unqualified.isVoid = false → convention = .unretained →
    events = (type.ownedSlots.filterMap (objectAt? value.bytes)).map .retain
  retained : convention = .retained → events = []

/-- What the callee hands over and what the caller takes is dropped when the result ends. -/
theorem Returns.balance_eq {type : CType} {convention : ReturnOwnership} {produced : List UInt8}
    {value : Value} {events : List ReferenceEvent}
    (returns : Returns type convention produced value events) (object : Nat) :
    convention.handed (value.references object) + balance (events ++ value.dropEvents) object = 0 := by
  rw [balance_append, Value.balance_dropEvents]
  cases convention with
  | retained =>
    rw [returns.retained rfl, balance_nil, ReturnOwnership.handed]
    omega
  | unretained =>
    rw [ReturnOwnership.handed]
    by_cases isVoid : type.unqualified.isVoid = true
    · obtain ⟨rfl, rfl⟩ := returns.void isVoid
      rfl
    · rw [Bool.not_eq_true] at isVoid
      have taken := balance_retainSlots value.bytes type.ownedSlots object
      rw [retainSlots, objectsAt, ← returns.unretained isVoid rfl] at taken
      rw [taken, Value.references, returns.type_eq isVoid]
      omega

namespace Invocation

variable {host : Host} {invocation : Invocation} {request : CallRequest} {produced : List UInt8}
  {value : Value} {events : List ReferenceEvent} {made : CallPlan}

/-- The result of a call is what its convention says. -/
theorem returns_of_finish (finished : finish invocation request produced = .ok (value, events)) :
    Returns request.signature.result.type (invocation.ownership request.target) produced value
      events := by
  unfold finish at finished
  dsimp only at finished
  split at finished
  next isVoid =>
    cases finished
    exact ⟨fun _ => ⟨rfl, rfl⟩, by simp [isVoid], by simp [isVoid], by simp [isVoid], fun _ => rfl⟩
  next isValue =>
    cases convention : invocation.ownership request.target with
    | unretained =>
      rw [convention, mapError_eq_ok_iff] at finished
      obtain ⟨type_eq, bytes_eq, rfl⟩ := Value.new_eq_ok finished
      refine ⟨fun isVoid => absurd isVoid isValue, fun _ => type_eq, fun _ => bytes_eq, fun _ _ => ?_,
        by simp⟩
      rw [bytes_eq]
      rfl
    | retained =>
      rw [convention, mapError_eq_ok_iff] at finished
      obtain ⟨adopted, isAdopted, same⟩ := map_eq_ok_iff.mp finished
      cases same
      obtain ⟨type_eq, bytes_eq⟩ := Value.adopt_eq_ok isAdopted
      exact ⟨fun isVoid => absurd isVoid isValue, fun _ => type_eq, fun _ => bytes_eq, by simp,
        fun _ => rfl⟩

/-- A call that was reached had been planned with a descriptor of its signature, and with room for the
result. -/
theorem exists_planned_of_called {σ : Type} {callee : CallPlan → σ → List UInt8 × σ}
    {before : ConfiguredCache} {cacheEvents : List CacheEvent} {state : σ} (isNew : before.cache.IsNew)
    (called : made ∈ (invoke (recorded callee) host (before.run cacheEvents).settings
      (before.run cacheEvents).cache invocation request ([], state)).state.1) :
    ∃ after, plan host (before.run cacheEvents).settings (before.run cacheEvents).cache invocation
        request = (.ok made, after) ∧
      made.descriptor.Describes request.signature ∧
      resultStorage made.descriptor.returnLayout < allocationLimit := by
  have faithful := ConfiguredCache.isFaithful_run isNew.isFaithful cacheEvents
  rcases planned : plan host (before.run cacheEvents).settings (before.run cacheEvents).cache
    invocation request with ⟨error | plan, after⟩
  · simp [invoke, planned] at called
  · rw [calls_of_planned planned, List.mem_singleton] at called
    subst called
    obtain ⟨_, got, _, granted⟩ := plan_eq_ok planned
    obtain ⟨_, prepared⟩ := faithful.prepared_of_get got
    exact ⟨after, rfl, (Descriptor.prepare_eq_ok_iff.mp prepared).1, granted⟩

/-- Whenever a call is reached, its result owns each of its references once: the caller takes what the
callee kept, so the end of the result leaves every count as it was before the call. -/
theorem returned_references_owned_once {σ : Type} (callee : CallPlan → σ → List UInt8 × σ)
    (host : Host) (before : ConfiguredCache) (cacheEvents : List CacheEvent) (invocation : Invocation)
    (request : CallRequest) (state : σ) (made : CallPlan) (isNew : before.cache.IsNew)
    (called : made ∈ (invoke (recorded callee) host (before.run cacheEvents).settings
      (before.run cacheEvents).cache invocation request ([], state)).state.1) :
    let outcome := invoke (recorded callee) host (before.run cacheEvents).settings
      (before.run cacheEvents).cache invocation request ([], state)
    ∃ convention value, Convention invocation.returns request.target convention ∧
      outcome.result = .ok value ∧ outcome.state = ([made], (callee made state).2) ∧
      Returns request.signature.result.type convention (callee made state).1 value outcome.events ∧
      ∀ (count : σ → Nat → Int) (object : Nat),
        count (callee made state).2 object =
            count state object + convention.handed (value.references object) →
          count (callee made state).2 object + balance (outcome.events ++ value.dropEvents) object =
            count state object := by
  intro outcome
  obtain ⟨after, planned, described, granted⟩ := exists_planned_of_called isNew called
  obtain ⟨value, events, finished, _⟩ :=
    exists_finish invocation (callee made state).1 described granted
  have outcome_eq : outcome = ⟨.ok value, events, after, [made], (callee made state).2⟩ := by
    simp only [outcome, invoke, planned, recorded, finished, List.nil_append]
  have returns := returns_of_finish finished
  rw [outcome_eq]
  refine ⟨_, value, convention_iff.mpr rfl, rfl, rfl, returns, fun count object counted => ?_⟩
  have dropped := returns.balance_eq object
  rw [counted, Int.add_assoc, dropped, Int.add_zero]

/-- A structure of three objects, one and then two in an array. -/
def triple : CType :=
  .aggregate .struct (some "Triple") [.ofType none .anyObject, .ofType none (.array 2 .anyObject)]

/-- A method whose name runs on after the word of a family. -/
def copyingRequest : CallRequest := ⟨.method triple [], .method 16 ⟨"copyingTriple"⟩, .resolve⟩

def noArguments : Invocation := ⟨⟨.aggregate .struct none [], [], by decide⟩, none⟩

/-- A callee that shows two references to one object, and keeps both. -/
def showTriple (_ : CallPlan) (events : List ReferenceEvent) : List UInt8 × List ReferenceEvent :=
  (Bytes.ofNat 8 32 ++ Bytes.zeros 8 ++ Bytes.ofNat 8 32, events)

theorem returned_references_owned_once_triple :
    let outcome := invoke (recorded showTriple) ⟨.flat, fun _ _ => some 64⟩ {} (.following {})
      noArguments copyingRequest ([], [])
    outcome.events = [.retain 32, .retain 32] ∧
      ∃ value, outcome.result = .ok value ∧ value.type = triple ∧
        balance (outcome.events ++ value.dropEvents) 32 = 0 := by
  have planned : (plan ⟨.flat, fun _ _ => some 64⟩ {} (.following {}) noArguments copyingRequest).1 =
      .ok ⟨64, ⟨[.pointer, .pointer], .record [.pointer, .pointer, .pointer], ⟨24, 8⟩, true⟩,
        [.receiver 16, .selector ⟨"copyingTriple"⟩]⟩ := by cbv
  have called : (invoke (recorded showTriple) ⟨.flat, fun _ _ => some 64⟩ {} (.following {}) noArguments
      copyingRequest ([], [])).state.1 = [_] := calls_of_planned (Prod.ext planned rfl)
  have present := List.mem_of_mem_head? (congrArg List.head? called)
  obtain ⟨convention, value, isConvention, result, _, returns, settled⟩ :=
    returned_references_owned_once showTriple ⟨.flat, fun _ _ => some 64⟩ (.following {}) [] noArguments
      copyingRequest [] _ (.following {}) present
  obtain rfl : convention = .unretained := (convention_iff.mp isConvention).symm.trans (by decide)
  have isValue : triple.unqualified.isVoid = false := rfl
  have taken := returns.unretained isValue rfl
  rw [returns.bytes_eq isValue] at taken
  have counted := settled balance 32 rfl
  rw [showTriple, balance_nil, Int.zero_add] at counted
  exact ⟨taken.trans (by cbv), value, result, returns.type_eq isValue, counted⟩

end Invocation

end ForeignCall
