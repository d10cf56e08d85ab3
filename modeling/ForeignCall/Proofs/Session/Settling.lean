import ForeignCall.Proofs.Session.Registers
import ForeignCall.Proofs.Session.Steps

/-! # Settling references

Inside a command a step may have references in hand: those of a value that is in no register yet, or
no longer. `Session.Settles` says how many a step begins with and how many its result carries on; a
step that fails must leave none behind. There is one rule for each way to combine steps and one for
each step on registers.
-/

namespace ForeignCall

namespace Session

variable {α β : Type} {object : Nat} {held : Int}

/-- How many references to an object the values of a session hold. -/
def references (session : Session) (object : Nat) : Nat :=
  registerReferences session.registers object

/-- The references to an object that were taken and not dropped and that no register holds. -/
def inHand (session : Session) (object : Nat) : Int :=
  balance (session.history ++ session.events) object - session.references object

/-- A session with an object system whose registers have distinct names. -/
structure IsOrderly (session : Session) : Prop where
  installed : session.objects.isSome
  distinct : (session.registers.map (·.1)).Nodup

/-- Two sessions with the same registers and events. -/
structure SameAccounts (session after : Session) : Prop where
  objects : after.objects = session.objects
  registers : after.registers = session.registers
  history : after.history = session.history
  events : after.events = session.events

/-- What a result carries on; an error carries nothing. -/
def carried (given : α → Int) : Except CommandError α → Int
  | .ok value => given value
  | .error _ => 0

/-- A step that begins with `held` references to an object in hand and gives its caller those of its
result. -/
def Settles (object : Nat) (held : Int) (action : Step α) (given : α → Int) : Prop :=
  ∀ session result after, action.run session = (result, after) → session.IsOrderly →
    after.IsOrderly ∧ after.inHand object - carried given result = session.inHand object - held

/-! ## Combining steps -/

theorem settles_pure (value : α) (given : α → Int) :
    Settles object (given value) (pure value) given := by
  intro session result after ran orderly
  cases ran
  exact ⟨orderly, rfl⟩

theorem settles_throw (error : CommandError) (given : α → Int) :
    Settles object 0 (throw error : Step α) given := by
  intro session result after ran orderly
  cases ran
  exact ⟨orderly, rfl⟩

theorem Settles.bind {action : Step α} {rest : α → Step β} {middle : α → Int} {given : β → Int}
    (first : Settles object held action middle)
    (second : ∀ value, Settles object (middle value) (rest value) given) :
    Settles object held (action >>= rest) given := by
  intro session result after ran orderly
  rw [run_bind] at ran
  rcases begun : action.run session with ⟨error | value, between⟩
  · rw [begun] at ran
    cases ran
    exact first _ _ _ begun orderly
  · rw [begun] at ran
    obtain ⟨orderly', balanced⟩ := first _ _ _ begun orderly
    obtain ⟨orderly'', balanced'⟩ := second value _ _ _ ran orderly'
    refine ⟨orderly'', ?_⟩
    simp only [carried] at balanced
    omega

/-- A handler settles what was in hand when the step that failed began. -/
theorem Settles.tryCatch {action : Step α} {handler : CommandError → Step α} {given : α → Int}
    (first : Settles object 0 action given)
    (second : ∀ error, Settles object held (handler error) fun value => held + given value) :
    Settles object held (tryCatch action handler) fun value => held + given value := by
  intro session result after ran orderly
  rw [run_tryCatch] at ran
  rcases begun : action.run session with ⟨error | value, between⟩
  · rw [begun] at ran
    obtain ⟨orderly', balanced⟩ := first _ _ _ begun orderly
    obtain ⟨orderly'', balanced'⟩ := second error _ _ _ ran orderly'
    refine ⟨orderly'', ?_⟩
    simp only [carried] at balanced
    omega
  · rw [begun] at ran
    cases ran
    obtain ⟨orderly', balanced⟩ := first _ _ _ begun orderly
    refine ⟨orderly', ?_⟩
    simp only [carried] at balanced ⊢
    omega

theorem settles_emit (events : List ReferenceEvent) :
    Settles object held (emit events) fun _ => held + balance events object := by
  intro session result after ran orderly
  rw [run_emit orderly.installed] at ran
  cases ran
  refine ⟨⟨orderly.installed, orderly.distinct⟩, ?_⟩
  simp only [inHand, references, carried, balance_append]
  omega

/-- Events at the end of a step are emitted even if it fails. -/
theorem Settles.tryFinally {action : Step α} {given : α → Int} {events : List ReferenceEvent}
    (first : Settles object 0 action given) (ends : held + balance events object = 0) :
    Settles object held (tryFinally action (emit events)) given := by
  intro session result after ran orderly
  rcases begun : action.run session with ⟨outcome, between⟩
  obtain ⟨orderly', balanced⟩ := first _ _ _ begun orderly
  have emitted := run_emit orderly'.installed events
  have last : Settles object held (emit events) fun _ => held + balance events object :=
    settles_emit events
  obtain ⟨orderly'', balanced'⟩ := last _ _ _ emitted orderly'
  rw [run_tryFinally, begun, emitted] at ran
  cases ran
  refine ⟨orderly'', ?_⟩
  simp only [carried] at balanced balanced' ⊢
  omega

/-! ## Steps without references -/

/-- A step that touches neither registers nor events settles nothing. -/
theorem settles_quiet {action : Step α}
    (same : ∀ session, SameAccounts session (action.run session).2) :
    Settles object 0 action fun _ => 0 := by
  intro session result after ran orderly
  have accounts := same session
  rw [ran] at accounts
  obtain ⟨objects, registers, history, events⟩ := accounts
  dsimp only at objects registers history events
  refine ⟨⟨objects ▸ orderly.installed, registers ▸ orderly.distinct⟩, ?_⟩
  have nothing : carried (fun _ => 0) result = 0 := by cases result <;> rfl
  rw [nothing, inHand, inHand, references, references, registers, history, events]

theorem settles_get : Settles object held get fun _ => held := by
  intro session result after ran orderly
  cases ran
  exact ⟨orderly, rfl⟩

theorem settles_ofValue {operation : Except ValueError α} {given : α → Int}
    (nothing : ∀ value, operation = .ok value → given value = 0) :
    Settles object 0 (ofValue operation) given := by
  cases operation with
  | ok value =>
    have last : Settles object (given value) (pure value) given := settles_pure value given
    rwa [nothing value rfl] at last
  | error error => exact settles_throw _ _

theorem settles_load (name : String) : Settles object 0 (load name) fun _ => 0 := by
  apply settles_quiet
  intro session
  rw [run_load]
  exact ⟨rfl, rfl, rfl, rfl⟩

theorem settles_hierarchy : Settles object held hierarchy fun _ => held :=
  settles_get.bind fun _ => settles_pure _ fun _ => held

theorem settles_bytesOf (kind : DatumType) (literal : Literal) :
    Settles object 0 (bytesOf kind literal) fun _ => 0 := by
  apply settles_quiet
  intro session
  unfold bytesOf
  simp only [run_bind, run_get, run_set]
  split <;> exact ⟨rfl, rfl, rfl, rfl⟩

theorem settles_cacheOf (name : String) : Settles object 0 (cacheOf name) fun _ => 0 := by
  apply settles_quiet
  intro session
  unfold cacheOf
  simp only [run_bind, run_get]
  split
  · exact ⟨rfl, rfl, rfl, rfl⟩
  · split <;> exact ⟨rfl, rfl, rfl, rfl⟩

theorem settles_setCache (name : String) (cache : Cache) :
    Settles object 0 (setCache name cache) fun _ => 0 := by
  apply settles_quiet
  intro session
  rw [setCache, run_modify]
  split <;> exact ⟨rfl, rfl, rfl, rfl⟩

/-! ## Steps on values -/

/-- An operation leaves in hand what its events take. -/
theorem settles_perform {operation : Except ValueError (α × List ReferenceEvent)} {given : α → Int}
    (balanced : ∀ value events, operation = .ok (value, events) → balance events object = given value) :
    Settles object 0 (perform operation) given := by
  intro session result after ran orderly
  rw [run_perform orderly.installed] at ran
  cases performed : operation with
  | error error =>
    rw [performed] at ran
    cases ran
    exact ⟨orderly, rfl⟩
  | ok pair =>
    obtain ⟨value, events⟩ := pair
    have change := balanced value events performed
    rw [performed] at ran
    cases ran
    refine ⟨⟨orderly.installed, orderly.distinct⟩, ?_⟩
    simp only [inHand, references, carried, balance_append]
    omega

theorem settles_copyOf (name : String) :
    Settles object 0 (copyOf name) fun value => value.references object := by
  refine (settles_load name).bind fun value => (settles_emit value.copyEvents).bind fun _ => ?_
  rw [Value.balance_copyEvents, Int.zero_add]
  exact settles_pure value fun value => value.references object

/-- A register that is assigned takes its new value over, and its old one ends. -/
theorem settles_store (name : String) (value : Value) :
    Settles object (value.references object) (store name value) fun _ => 0 := by
  intro session result after ran orderly
  have sum := registerReferences_assign name value session.registers object
  have distinct := nodup_assign orderly.distinct name value
  rw [store, run_bind, run_get] at ran
  dsimp only at ran
  rw [run_bind, run_replace] at ran
  dsimp only at ran
  cases found : session.registers.lookup name with
  | none =>
    rw [found] at ran
    cases ran
    simp only [referencesIn, found, Option.map_none, Option.getD_none] at sum
    refine ⟨⟨orderly.installed, distinct⟩, ?_⟩
    simp only [inHand, references, carried]
    omega
  | some old =>
    rw [found] at ran
    dsimp only at ran
    have replaced : IsOrderly { session with registers := assign name value session.registers } :=
      ⟨orderly.installed, distinct⟩
    rw [run_emit replaced.installed] at ran
    cases ran
    simp only [referencesIn, found, Option.map_some, Option.getD_some] at sum
    refine ⟨⟨orderly.installed, distinct⟩, ?_⟩
    simp only [inHand, references, carried, balance_append, Value.balance_dropEvents]
    omega

/-- A value that is taken out of its register is in hand. -/
theorem settles_take (name : String) :
    Settles object 0 (take name) fun value => value.references object := by
  intro session result after ran orderly
  rw [take, run_bind, run_load] at ran
  cases found : session.registers.lookup name with
  | none =>
    rw [found] at ran
    cases ran
    exact ⟨orderly, rfl⟩
  | some value =>
    rw [found] at ran
    dsimp only at ran
    rw [run_bind, run_modify] at ran
    cases ran
    have sum := registerReferences_filter orderly.distinct found object
    refine ⟨⟨orderly.installed, ?_⟩, ?_⟩
    · exact orderly.distinct.sublist (List.filter_sublist.map _)
    · simp only [inHand, references, carried]
      omega

/-- A register whose value changes holds what the events of the change say. -/
theorem settles_update (register : String)
    {change : Hierarchy → Value → Except ValueError (Value × List ReferenceEvent)}
    (balanced : ∀ host value updated events, change host value = .ok (updated, events) →
      balance events object = updated.references object - value.references object) :
    Settles object 0 (update register change) fun _ => 0 := by
  intro session result after ran orderly
  rw [update, run_bind, run_load] at ran
  cases found : session.registers.lookup register with
  | none =>
    rw [found] at ran
    cases ran
    exact ⟨orderly, rfl⟩
  | some value =>
    rw [found] at ran
    dsimp only at ran
    have looked : hierarchy.run session = (.ok session.host.hierarchy, session) := rfl
    rw [run_bind, looked] at ran
    dsimp only at ran
    rw [run_bind, run_perform orderly.installed] at ran
    cases changed : change session.host.hierarchy value with
    | error error =>
      rw [changed] at ran
      cases ran
      exact ⟨orderly, rfl⟩
    | ok pair =>
      obtain ⟨updated, events⟩ := pair
      rw [changed] at ran
      cases ran
      have sum := registerReferences_assign register updated session.registers object
      have difference := balanced _ _ _ _ changed
      simp only [referencesIn, found, Option.map_some, Option.getD_some] at sum
      refine ⟨⟨orderly.installed, nodup_assign orderly.distinct register updated⟩, ?_⟩
      simp only [inHand, references, carried, balance_append]
      omega

end Session

end ForeignCall
