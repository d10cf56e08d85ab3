import Mathlib.Data.List.Induction
import ForeignCall.Proofs.Cache.History

/-! # Caches under changing settings

The settings may change between the operations on a cache (`ConfiguredCache`). Whatever happens, the
entries of a new cache are faithful: one for a signature, each with a descriptor that was prepared
for it (`ConfiguredCache.isFaithful_run`).

A cache that follows the settings gives up its last entries when the capacity in force has become
smaller, and it does not ask whether they are pinned. So a pinned resident stays exactly as long as
no new descriptor is taken up under a capacity that does not reach down to it
(`ConfiguredCache.staysResident_iff`).
-/

namespace ForeignCall

/-- What happens to a cache: other settings come into force, or the cache is asked for something. -/
inductive CacheEvent where
  | configure (settings : Settings)
  | operate (operation : CacheOperation)

structure ConfiguredCache where
  settings : Settings
  cache : Cache

namespace Cache

variable {cache : Cache} {settings : Settings} {signature : Signature}

/-- A cache that has not been used: of a fixed capacity, or following the settings. -/
inductive IsNew : Cache → Prop where
  | ofCapacity (capacity : Nat) : IsNew (.ofCapacity capacity)
  | following (settings : Settings) : IsNew (.following settings)

/-- The entries fit, no signature has two, and each holds a descriptor prepared for its signature. -/
structure IsFaithful (cache : Cache) : Prop where
  size_le : cache.size ≤ cache.capacity
  distinct : (cache.entries.map (·.signature)).Nodup
  prepared : ∀ entry ∈ cache.entries, ∃ verifyLayouts,
    Descriptor.prepare verifyLayouts entry.signature = .ok entry.descriptor

theorem IsNew.isFaithful (isNew : cache.IsNew) : cache.IsFaithful := by
  cases isNew with
  | ofCapacity | following => exact ⟨Nat.zero_le _, List.nodup_nil, by rintro entry ⟨⟩⟩

/-- One operation keeps a cache faithful. -/
theorem IsFaithful.step (faithful : cache.IsFaithful) (settings : Settings)
    (operation : CacheOperation) : (cache.step settings operation).IsFaithful := by
  cases operation with
  | get signature =>
    obtain ⟨_, _, _, _, _, _, _, bounded⟩ := get_entries settings faithful.size_le signature
    refine ⟨bounded, distinct_get settings faithful.size_le faithful.distinct signature, ?_⟩
    intro entry present
    exact (mem_get settings faithful.size_le signature present).elim (faithful.prepared entry)
      fun prepared => ⟨_, prepared⟩
  | pin signature | unpin signature => exact ⟨faithful.size_le, faithful.distinct, faithful.prepared⟩
  | clear => exact ⟨Nat.zero_le _, List.nodup_nil, by rintro entry ⟨⟩⟩

/-- A lookup in a faithful cache hands out a descriptor that was prepared for the signature. -/
theorem IsFaithful.prepared_of_get {descriptor : Descriptor} (faithful : cache.IsFaithful)
    (got : (cache.get settings signature).1 = .ok descriptor) :
    ∃ verifyLayouts, Descriptor.prepare verifyLayouts signature = .ok descriptor := by
  rcases cache.get_cases settings signature with ⟨kept, found, result⟩ | ⟨made, _, prepared, result⟩ |
    ⟨_, _, _, result⟩
  · rw [result] at got
    cases got
    exact faithful.prepared _ (mem_of_lookup? found)
  · rw [result] at got
    cases got
    exact ⟨_, prepared⟩
  · rw [result] at got
    contradiction

theorem followsSettings_step (settings : Settings) (operation : CacheOperation) :
    (cache.step settings operation).followsSettings = cache.followsSettings := by
  cases operation with
  | get signature => exact (get_frame settings cache signature).2
  | pin signature | unpin signature | clear => rfl

/-! ## Ranks -/

/-- The number of entries that stand before that of a signature. -/
def rank (cache : Cache) (signature : Signature) : Nat :=
  cache.entries.findIdx (·.signature = signature)

theorem contains_iff_rank : cache.contains signature = true ↔ cache.rank signature < cache.size := by
  rw [rank, size, List.findIdx_lt_length, contains, List.any_eq_true]

/-- Taking over a capacity keeps the entries of lower rank. -/
theorem contains_resize_iff (follows : cache.followsSettings = true)
    (resident : cache.contains signature = true) :
    (cache.resize settings).contains signature = true ↔
      cache.rank signature < effectiveCapacity settings.capacity := by
  rw [contains_iff_rank, rank, size] at resident ⊢
  simp only [resize, follows, if_true, List.findIdx_take, List.length_take, rank]
  omega

/-- A new descriptor displaces no pinned resident that the capacity in force reaches. -/
theorem contains_keep_iff {entry : CacheEntry} (size_le : cache.size ≤ cache.capacity)
    (pinned : cache.isPinned signature = true) (other : entry.signature ≠ signature) :
    (cache.keep settings entry).contains signature = true ↔
      (cache.resize settings).contains signature = true := by
  obtain ⟨removed, kept, entries, isNew, result, unpinned, _, perm, _⟩ :=
    keep_resize_spec settings size_le entry
  rw [result, contains_iff, contains_iff]
  constructor
  · rintro ⟨left, present, same⟩
    rcases List.mem_append.mp (perm.mem_iff.mp (List.mem_append_right removed present)) with
      added | old
    · obtain rfl := List.mem_singleton.mp (isNew.subset added)
      exact absurd same other
    · exact ⟨left, old, same⟩
  · rintro ⟨left, present, same⟩
    rcases List.mem_append.mp (perm.mem_iff.mpr (List.mem_append_right kept present)) with
      gone | stays
    · have unpinned := (unpinned left gone).1
      rw [same, pinned] at unpinned
      contradiction
    · exact ⟨left, stays, same⟩

end Cache

namespace ConfiguredCache

variable {state : ConfiguredCache} {signature : Signature} {event : CacheEvent}
  {events : List CacheEvent}

def step (state : ConfiguredCache) : CacheEvent → ConfiguredCache
  | .configure settings => { state with settings := settings }
  | .operate operation => { state with cache := state.cache.step state.settings operation }

def run (state : ConfiguredCache) (events : List CacheEvent) : ConfiguredCache :=
  events.foldl step state

/-- The new cache that follows the settings in force. -/
def following (settings : Settings) : ConfiguredCache := ⟨settings, .following settings⟩

theorem run_append (earlier later : List CacheEvent) :
    state.run (earlier ++ later) = (state.run earlier).run later :=
  List.foldl_append

/-- What every event keeps holds after all. -/
theorem run_induction {P : ConfiguredCache → Prop} (start : P state)
    (step : ∀ state event, event ∈ events → P state → P (state.step event)) : P (state.run events) := by
  induction events generalizing state with
  | nil => exact start
  | cons event events ih =>
    exact ih (step state event (List.mem_cons_self ..) start) fun other another present =>
      step other another (List.mem_cons_of_mem _ present)

/-- Every history keeps a cache faithful, whatever settings come into force. -/
theorem isFaithful_run (faithful : state.cache.IsFaithful) (events : List CacheEvent) :
    (state.run events).cache.IsFaithful := by
  refine run_induction (P := fun state => state.cache.IsFaithful) faithful ?_
  rintro state (settings | operation) _ faithful
  · exact faithful
  · exact faithful.step state.settings operation

theorem followsSettings_run (follows : state.cache.followsSettings = true) (events : List CacheEvent) :
    (state.run events).cache.followsSettings = true := by
  refine run_induction (P := fun state => state.cache.followsSettings = true) follows ?_
  rintro state (settings | operation) _ follows
  · exact follows
  · exact (Cache.followsSettings_step state.settings operation).trans follows

/-! ## Pinned residents -/

/-- An event that ends the stay of a signature by intention: it is unpinned, or the cache is cleared. -/
def Dismisses (signature : Signature) : CacheEvent → Prop
  | .operate (.unpin other) => other = signature
  | .operate .clear => True
  | _ => False

/-- An event that cuts off the entry of a signature: a new descriptor is taken up under a capacity
that does not reach down to the entry. -/
def Cuts (state : ConfiguredCache) (signature : Signature) : CacheEvent → Prop
  | .operate (.get other) =>
    state.cache.contains other = false ∧
      (∃ descriptor, Descriptor.prepare state.settings.verifyLayouts other = .ok descriptor) ∧
      Cache.effectiveCapacity state.settings.capacity ≤ state.cache.rank signature
  | _ => False

theorem isPinned_step (pinned : state.cache.isPinned signature = true)
    (stays : ¬Dismisses signature event) : (state.step event).cache.isPinned signature = true := by
  cases event with
  | configure => exact pinned
  | operate operation =>
    refine Cache.isPinned_step pinned ?_
    rintro rfl
    exact stays rfl

/-- A pinned resident that is not dismissed stays unless the event cuts it off. -/
theorem contains_step_iff (faithful : state.cache.IsFaithful)
    (follows : state.cache.followsSettings = true) (pinned : state.cache.isPinned signature = true)
    (resident : state.cache.contains signature = true) (stays : ¬Dismisses signature event) :
    (state.step event).cache.contains signature = true ↔ ¬state.Cuts signature event := by
  cases event with
  | configure => exact iff_of_true resident id
  | operate operation =>
    cases operation with
    | pin other => exact iff_of_true resident id
    | unpin other => exact iff_of_true resident id
    | clear => exact absurd trivial stays
    | get other =>
      rcases state.cache.get_cases state.settings other with ⟨_, found, got⟩ |
        ⟨descriptor, missing, prepared, got⟩ | ⟨_, _, failed, got⟩
      · have contained : ¬state.cache.contains other = false := by
          rw [← Cache.lookup?_eq_none_iff, found]
          simp
        refine iff_of_true ?_ fun cuts => contained cuts.1
        rwa [step, Cache.step, got]
      · have missing := Cache.lookup?_eq_none_iff.mp missing
        have different : other ≠ signature := by
          rintro rfl
          rw [resident] at missing
          contradiction
        rw [step, Cache.step, got, Cache.contains_keep_iff faithful.size_le pinned different,
          Cache.contains_resize_iff follows resident, ← Nat.not_le]
        exact not_congr ⟨fun below => ⟨missing, ⟨descriptor, prepared⟩, below⟩, fun cuts => cuts.2.2⟩
      · refine iff_of_true ?_ ?_
        · rwa [step, Cache.step, got]
        · rintro ⟨_, ⟨descriptor, prepared⟩, _⟩
          rw [failed] at prepared
          contradiction

/-- What is known of a pinned signature after events that do not dismiss it. -/
theorem isPinned_run (pinned : state.cache.isPinned signature = true)
    (stays : ∀ event ∈ events, ¬Dismisses signature event) :
    (state.run events).cache.isPinned signature = true :=
  run_induction (P := fun state => state.cache.isPinned signature = true) pinned
    fun _ event present pinned => isPinned_step pinned (stays event present)

/-- A signature has an entry after each of the events. -/
def StaysResident (state : ConfiguredCache) (signature : Signature) (events : List CacheEvent) : Prop :=
  ∀ earlier later, events = earlier ++ later → (state.run earlier).cache.contains signature = true

/-- None of the events cuts off the entry of a signature. -/
def NeverCut (state : ConfiguredCache) (signature : Signature) (events : List CacheEvent) : Prop :=
  ∀ earlier event later, events = earlier ++ event :: later →
    ¬(state.run earlier).Cuts signature event

/-- Through events that do not dismiss it, a pinned resident stays exactly if none cuts it off. -/
theorem staysResident_iff (faithful : state.cache.IsFaithful)
    (follows : state.cache.followsSettings = true) (pinned : state.cache.isPinned signature = true)
    (resident : state.cache.contains signature = true)
    (stays : ∀ event ∈ events, ¬Dismisses signature event) :
    state.StaysResident signature events ↔ state.NeverCut signature events := by
  -- At every moment at which the signature is still resident, one step decides.
  have next : ∀ earlier event later, events = earlier ++ event :: later →
      (state.run earlier).cache.contains signature = true →
        ((state.run (earlier ++ [event])).cache.contains signature = true ↔
          ¬(state.run earlier).Cuts signature event) := by
    rintro earlier event later rfl reached
    have among : ∀ other ∈ earlier, other ∈ earlier ++ event :: later := fun _ present =>
      List.mem_append_left _ present
    rw [run_append]
    exact contains_step_iff (isFaithful_run faithful earlier) (followsSettings_run follows earlier)
      (isPinned_run pinned fun other present => stays other (among other present)) reached
      (stays event (List.mem_append_right _ (List.mem_cons_self ..)))
  constructor
  · intro resident earlier event later split
    have reached := resident earlier (event :: later) split
    exact (next earlier event later split reached).mp (resident (earlier ++ [event]) later (by simp [split]))
  · intro uncut earlier
    induction earlier using List.reverseRecOn with
    | nil => exact fun _ _ => resident
    | append_singleton earlier event ih =>
      intro later split
      have split : events = earlier ++ event :: later := by simpa using split
      exact (next earlier event later split (ih (event :: later) split)).mpr
        (uncut earlier event later split)

/-- In the cache that follows the settings, after any history and under any settings, a pinned
resident that is neither unpinned nor cleared stays exactly as long as no new descriptor is taken up
under a capacity that does not reach down to it. -/
theorem pinned_resident_stays_iff (settings : Settings) (history events : List CacheEvent)
    (signature : Signature)
    (pinned : ((following settings).run history).cache.isPinned signature = true)
    (resident : ((following settings).run history).cache.contains signature = true)
    (stays : ∀ event ∈ events, ¬Dismisses signature event) :
    ((following settings).run history).StaysResident signature events ↔
      ((following settings).run history).NeverCut signature events :=
  staysResident_iff (isFaithful_run (Cache.IsNew.following settings).isFaithful history)
    (followsSettings_run rfl history) pinned resident stays

def thunk (result : CType) : Signature := ⟨⟨{}, result⟩, []⟩

/-- A pinned entry and a later one. -/
def pinningHistory : List CacheEvent :=
  [.operate (.get (thunk .void)), .operate (.pin (thunk .void)),
    .operate (.get (thunk (.scalar .int)))]

/-- A new descriptor is taken up under a smaller capacity. -/
def shrinkingEvents : List CacheEvent :=
  [.configure { capacity := 1 }, .operate (.get (thunk (.scalar .double)))]

theorem pinned_resident_stays_iff_shrinking :
    ((following { capacity := 2 }).run pinningHistory).cache.isPinned (thunk .void) = true ∧
      ((following { capacity := 2 }).run pinningHistory).cache.contains (thunk .void) = true ∧
      (((following { capacity := 2 }).run pinningHistory).StaysResident (thunk .void)
          shrinkingEvents ↔
        ((following { capacity := 2 }).run pinningHistory).NeverCut (thunk .void)
          shrinkingEvents) := by
  have pinned :
      ((following { capacity := 2 }).run pinningHistory).cache.isPinned (thunk .void) = true := by
    decide +kernel
  have resident :
      ((following { capacity := 2 }).run pinningHistory).cache.contains (thunk .void) = true := by
    decide +kernel
  have stays : ∀ event ∈ shrinkingEvents, ¬Dismisses (thunk .void) event := by
    simp [shrinkingEvents, Dismisses]
  exact ⟨pinned, resident, pinned_resident_stays_iff _ _ _ _ pinned resident stays⟩

/-- A pinned resident can be lost although it is neither unpinned nor cleared. -/
theorem pinned_resident_given_up :
    ¬∀ (settings : Settings) (history events : List CacheEvent) (signature : Signature),
      ((following settings).run history).cache.isPinned signature = true →
      ((following settings).run history).cache.contains signature = true →
      (∀ event ∈ events, ¬Dismisses signature event) →
      (((following settings).run history).run events).cache.contains signature = true := by
  intro keeps
  have kept := keeps { capacity := 2 } pinningHistory shrinkingEvents (thunk .void)
    (by decide +kernel) (by decide +kernel) (by simp [shrinkingEvents, Dismisses])
  have lost : (((following { capacity := 2 }).run pinningHistory).run
      shrinkingEvents).cache.contains (thunk .void) = false := by decide +kernel
  rw [lost] at kept
  contradiction

end ConfiguredCache

end ForeignCall
