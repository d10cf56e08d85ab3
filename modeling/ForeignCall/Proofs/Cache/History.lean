import ForeignCall.Proofs.Cache.Eviction

/-! # Histories of a cache

A history is a list of operations on one cache under settings that stay the same. `IsOrderly` holds
of a new cache of a fixed capacity and is kept by every operation (`IsOrderly.run`); the promises of
such a cache to its users (`Promises`) follow from it.
-/

namespace ForeignCall

inductive CacheOperation where
  | get (signature : Signature)
  | pin (signature : Signature)
  | unpin (signature : Signature)
  | clear

namespace Cache

def step (settings : Settings) (cache : Cache) : CacheOperation → Cache
  | .get signature => (cache.get settings signature).2
  | .pin signature => cache.pin signature
  | .unpin signature => cache.unpin signature
  | .clear => cache.clear

def run (settings : Settings) (cache : Cache) (operations : List CacheOperation) : Cache :=
  operations.foldl (step settings) cache

/-- The number of descriptors that an operation hands out: one for a lookup that succeeds. -/
def served (settings : Settings) (cache : Cache) : CacheOperation → Nat
  | .get signature =>
    match (cache.get settings signature).1 with
    | .ok _ => 1
    | .error _ => 0
  | .pin _ | .unpin _ | .clear => 0

/-- The number of descriptors that operations in order hand out. -/
def servedBy (settings : Settings) (cache : Cache) : List CacheOperation → Nat
  | [] => 0
  | operation :: operations =>
    cache.served settings operation + (cache.step settings operation).servedBy settings operations

variable {settings : Settings} {cache : Cache} {signature : Signature}

/-- The state in which every operation leaves a cache of fixed capacity: within its capacity, with one
entry for a signature, and with the descriptor that the signature has under the settings. -/
structure IsOrderly (settings : Settings) (cache : Cache) : Prop where
  fixed : cache.followsSettings = false
  size_le : cache.size ≤ cache.capacity
  distinct : (cache.entries.map (·.signature)).Nodup
  faithful : ∀ entry ∈ cache.entries,
    Descriptor.prepare settings.verifyLayouts entry.signature = .ok entry.descriptor

theorem isOrderly_ofCapacity (settings : Settings) (capacity : Nat) :
    (ofCapacity capacity).IsOrderly settings where
  fixed := rfl
  size_le := Nat.zero_le _
  distinct := List.nodup_nil
  faithful := by simp [ofCapacity]

/-! ## Lookups -/

/-- What a lookup does: a kept descriptor is handed out and a hit counted; a new one is prepared and
taken up; a signature that cannot be prepared leaves no trace. -/
theorem get_cases (settings : Settings) (cache : Cache) (signature : Signature) :
    (∃ descriptor, cache.lookup? signature = some descriptor ∧
      cache.get settings signature = (.ok descriptor, { cache with hits := countUp cache.hits })) ∨
    (∃ descriptor, cache.lookup? signature = none ∧
      Descriptor.prepare settings.verifyLayouts signature = .ok descriptor ∧
      cache.get settings signature = (.ok descriptor, cache.keep settings ⟨signature, descriptor⟩)) ∨
    ∃ error, cache.lookup? signature = none ∧
      Descriptor.prepare settings.verifyLayouts signature = .error error ∧
      cache.get settings signature = (.error error, cache) := by
  cases found : cache.lookup? signature with
  | some descriptor => exact .inl ⟨descriptor, rfl, by simp [get, found]⟩
  | none =>
    cases prepared : Descriptor.prepare settings.verifyLayouts signature with
    | ok descriptor => exact .inr (.inl ⟨descriptor, rfl, rfl, by simp [get, found, prepared]⟩)
    | error error => exact .inr (.inr ⟨error, rfl, rfl, by simp [get, found, prepared]⟩)

/-- A signature that cannot be prepared leaves the cache as it was. -/
theorem get_of_error {error : InterfaceError}
    (failed : (cache.get settings signature).1 = .error error) :
    cache.get settings signature = (.error error, cache) := by
  rcases cache.get_cases settings signature with ⟨_, _, got⟩ | ⟨_, _, _, got⟩ | ⟨_, _, _, got⟩
  · rw [got] at failed
    contradiction
  · rw [got] at failed
    contradiction
  · rw [got] at failed ⊢
    rw [← failed]

theorem get_frame (settings : Settings) (cache : Cache) (signature : Signature) :
    (cache.get settings signature).2.pinned = cache.pinned ∧
      (cache.get settings signature).2.followsSettings = cache.followsSettings := by
  rcases cache.get_cases settings signature with ⟨_, _, got⟩ | ⟨_, _, _, got⟩ | ⟨_, _, _, got⟩
  · rw [got]
    exact ⟨rfl, rfl⟩
  · rw [got]
    exact keep_frame settings cache _
  · rw [got]
    exact ⟨rfl, rfl⟩

/-- What a lookup leaves of the entries: some of the old ones, in some order, and at most the
descriptor that was prepared for a signature without an entry. -/
theorem get_entries (settings : Settings) (size_le : cache.size ≤ cache.capacity)
    (signature : Signature) :
    ∃ removed kept old : List CacheEntry, old.Sublist cache.entries ∧ kept.length ≤ 1 ∧
      (∀ entry ∈ kept, entry.signature = signature ∧ cache.contains signature = false ∧
        Descriptor.prepare settings.verifyLayouts signature = .ok entry.descriptor) ∧
      (removed ++ (cache.get settings signature).2.entries).Perm (kept ++ old) ∧
      (cache.get settings signature).2.size ≤ (cache.get settings signature).2.capacity := by
  rcases cache.get_cases settings signature with ⟨descriptor, found, got⟩ |
    ⟨descriptor, missing, prepared, got⟩ | ⟨error, _, _, got⟩
  · rw [got]
    exact ⟨[], [], cache.entries, .refl _, by simp, by simp, .refl _, size_le⟩
  · obtain ⟨removed, kept, entries, isNew, result, _, _, perm, bounded⟩ :=
      keep_resize_spec settings size_le ⟨signature, descriptor⟩
    rw [got, result]
    refine ⟨removed, kept, (cache.resize settings).entries, (resize_spec settings size_le).2.1,
      isNew.length_le, fun entry present => ?_, perm, bounded⟩
    obtain rfl := List.mem_singleton.mp (isNew.subset present)
    exact ⟨rfl, lookup?_eq_none_iff.mp missing, prepared⟩
  · rw [got]
    exact ⟨[], [], cache.entries, .refl _, by simp, by simp, .refl _, size_le⟩

/-- A lookup gives no signature a second entry. -/
theorem distinct_get (settings : Settings) (size_le : cache.size ≤ cache.capacity)
    (distinct : (cache.entries.map (·.signature)).Nodup) (signature : Signature) :
    ((cache.get settings signature).2.entries.map (·.signature)).Nodup := by
  obtain ⟨removed, kept, old, sublist, atMostOne, isNew, perm, _⟩ :=
    get_entries settings size_le signature
  have distinct := distinct.sublist (sublist.map _)
  have distinct : ((kept ++ old).map (·.signature)).Nodup := by
    match kept, isNew, atMostOne with
    | [], _, _ => exact distinct
    | [entry], isNew, _ =>
      obtain ⟨same, missing, _⟩ := isNew entry (List.mem_singleton_self _)
      refine List.nodup_cons.mpr ⟨fun present => ?_, distinct⟩
      obtain ⟨other, resident, equal⟩ := List.mem_map.mp present
      have contained := contains_iff.mpr ⟨other, sublist.subset resident, equal.trans same⟩
      rw [missing] at contained
      contradiction
  have all := (perm.map (·.signature)).nodup_iff.mpr distinct
  rw [List.map_append] at all
  exact (List.nodup_append.mp all).2.1

/-- An entry after a lookup was there before or has just been prepared. -/
theorem mem_get {entry : CacheEntry} (settings : Settings) (size_le : cache.size ≤ cache.capacity)
    (signature : Signature) (present : entry ∈ (cache.get settings signature).2.entries) :
    entry ∈ cache.entries ∨
      Descriptor.prepare settings.verifyLayouts entry.signature = .ok entry.descriptor := by
  obtain ⟨removed, kept, old, sublist, _, isNew, perm, _⟩ := get_entries settings size_le signature
  rcases List.mem_append.mp (perm.mem_iff.mp (List.mem_append_right removed present)) with
    added | resident
  · obtain ⟨same, _, prepared⟩ := isNew entry added
    exact .inr (same ▸ prepared)
  · exact .inl (sublist.subset resident)

/-- A lookup answers as if there were no cache. -/
theorem IsOrderly.get_eq_prepare (orderly : cache.IsOrderly settings) (signature : Signature) :
    (cache.get settings signature).1 = Descriptor.prepare settings.verifyLayouts signature := by
  rcases cache.get_cases settings signature with ⟨descriptor, found, got⟩ |
    ⟨descriptor, _, prepared, got⟩ | ⟨error, _, prepared, got⟩
  · rw [got, orderly.faithful _ (mem_of_lookup? found)]
  · rw [got, prepared]
  · rw [got, prepared]

/-- A lookup gives up at most one entry, unpinned and only from a full cache, and takes up at most
the descriptor of its signature. -/
theorem IsOrderly.get_spec (orderly : cache.IsOrderly settings) (signature : Signature) :
    ∃ removed kept entries : List CacheEntry, ∃ hits misses : Nat,
      (cache.get settings signature).2 =
        { cache with entries := entries, hits := hits, misses := misses } ∧
      (∀ entry ∈ kept, entry.signature = signature ∧ cache.contains signature = false ∧
        Descriptor.prepare settings.verifyLayouts signature = .ok entry.descriptor) ∧
      kept.length ≤ 1 ∧
      (∀ entry ∈ removed, cache.isPinned entry.signature = false ∧ cache.size = cache.capacity) ∧
      removed.length ≤ 1 ∧ (removed ++ entries).Perm (kept ++ cache.entries) ∧
      entries.length ≤ cache.capacity := by
  rcases cache.get_cases settings signature with ⟨descriptor, found, got⟩ |
    ⟨descriptor, missing, prepared, got⟩ | ⟨error, _, prepared, got⟩
  · rw [got]
    exact ⟨[], [], cache.entries, _, cache.misses, rfl, by simp, by simp, by simp, by simp, .refl _,
      orderly.size_le⟩
  · obtain ⟨removed, kept, entries, isNew, result, unpinned, atMostOne, perm, bounded⟩ :=
      keep_spec settings orderly.fixed orderly.size_le ⟨signature, descriptor⟩
    rw [got, result]
    refine ⟨removed, kept, entries, cache.hits, _, rfl, fun entry present => ?_, isNew.length_le,
      unpinned, atMostOne, perm, bounded⟩
    obtain rfl := List.mem_singleton.mp (isNew.subset present)
    exact ⟨rfl, lookup?_eq_none_iff.mp missing, prepared⟩
  · rw [got]
    exact ⟨[], [], cache.entries, cache.hits, cache.misses, rfl, by simp, by simp, by simp, by simp,
      .refl _, orderly.size_le⟩

/-! ## Steps and runs -/

theorem IsOrderly.get (orderly : cache.IsOrderly settings) (signature : Signature) :
    (cache.get settings signature).2.IsOrderly settings := by
  obtain ⟨_, _, _, _, _, result, _, _, _, _, _, bounded⟩ := orderly.get_spec signature
  have distinct := distinct_get settings orderly.size_le orderly.distinct signature
  have prepared : ∀ entry ∈ (cache.get settings signature).2.entries, entry ∈ cache.entries ∨
      Descriptor.prepare settings.verifyLayouts entry.signature = .ok entry.descriptor :=
    fun _ => mem_get settings orderly.size_le signature
  rw [result] at distinct prepared ⊢
  refine ⟨orderly.fixed, bounded, distinct, fun entry present => ?_⟩
  exact (prepared entry present).elim (orderly.faithful entry) id

/-- One operation keeps a cache orderly. -/
theorem IsOrderly.step (orderly : cache.IsOrderly settings) (operation : CacheOperation) :
    (cache.step settings operation).IsOrderly settings := by
  cases operation with
  | get signature => exact orderly.get signature
  | pin signature | unpin signature =>
    exact ⟨orderly.fixed, orderly.size_le, orderly.distinct, orderly.faithful⟩
  | clear => exact ⟨orderly.fixed, Nat.zero_le _, List.nodup_nil, by simp [Cache.step, clear]⟩

/-- Every history keeps a cache orderly. -/
theorem IsOrderly.run (orderly : cache.IsOrderly settings) (operations : List CacheOperation) :
    (cache.run settings operations).IsOrderly settings := by
  induction operations generalizing cache with
  | nil => exact orderly
  | cons operation operations ih => exact ih (orderly.step operation)

/-- No operation changes the capacity of an orderly cache. -/
theorem IsOrderly.capacity_step (orderly : cache.IsOrderly settings) (operation : CacheOperation) :
    (cache.step settings operation).capacity = cache.capacity := by
  cases operation with
  | get signature =>
    obtain ⟨_, _, _, _, _, result, _⟩ := orderly.get_spec signature
    rw [Cache.step, result]
  | pin signature | unpin signature | clear => rfl

theorem IsOrderly.capacity_run (orderly : cache.IsOrderly settings)
    (operations : List CacheOperation) :
    (cache.run settings operations).capacity = cache.capacity := by
  induction operations generalizing cache with
  | nil => rfl
  | cons operation operations ih =>
    exact (ih (orderly.step operation)).trans (orderly.capacity_step operation)

/-! ## Pinned entries -/

theorem isPinned_pin (cache : Cache) (signature other : Signature) :
    (cache.pin other).isPinned signature = (decide (signature = other) || cache.isPinned signature) := by
  cases already : cache.isPinned other with
  | true =>
    have same : cache.pin other = cache := by simp only [pin, already, ↓reduceIte]
    rw [same]
    by_cases isOther : signature = other
    · rw [isOther, already, Bool.or_true]
    · rw [decide_eq_false isOther, Bool.false_or]
  | false =>
    have added : (cache.pin other).pinned = other :: cache.pinned := by
      simp only [pin, already, Bool.false_eq_true, ↓reduceIte]
    simp [isPinned, added]

theorem isPinned_unpin (cache : Cache) (signature other : Signature) :
    (cache.unpin other).isPinned signature = (decide (signature ≠ other) && cache.isPinned signature) := by
  rw [Bool.eq_iff_iff]
  simp [unpin, isPinned, and_comm]

/-- Only unpinning ends the pinning of a signature. -/
theorem isPinned_step {operation : CacheOperation} (pinned : cache.isPinned signature = true)
    (stays : operation ≠ .unpin signature) :
    (cache.step settings operation).isPinned signature = true := by
  cases operation with
  | get other => rwa [step, isPinned, (get_frame settings cache other).1]
  | pin other => rw [step, isPinned_pin, pinned, Bool.or_true]
  | unpin other =>
    have different : signature ≠ other := by
      rintro rfl
      exact stays rfl
    rw [step, isPinned_unpin, pinned, decide_eq_true different, Bool.and_true]
  | clear => exact pinned

/-- An operation that neither unpins a signature nor clears the cache leaves a pinned resident
pinned and resident. -/
theorem IsOrderly.resident_step {operation : CacheOperation} (orderly : cache.IsOrderly settings)
    (pinned : cache.isPinned signature = true) (resident : cache.contains signature = true)
    (stays : operation ≠ .unpin signature ∧ operation ≠ .clear) :
    (cache.step settings operation).isPinned signature = true ∧
      (cache.step settings operation).contains signature = true := by
  refine ⟨isPinned_step pinned stays.1, ?_⟩
  cases operation with
  | get other =>
    obtain ⟨removed, kept, entries, _, _, result, _, _, unpinned, _, perm, _⟩ :=
      orderly.get_spec other
    rw [Cache.step, result]
    obtain ⟨entry, present, same⟩ := contains_iff.mp resident
    rcases List.mem_append.mp (perm.mem_iff.mpr (List.mem_append_right kept present)) with gone | left
    · have unpinned := (unpinned entry gone).1
      rw [same, pinned] at unpinned
      contradiction
    · exact contains_iff.mpr ⟨entry, left, same⟩
  | pin other | unpin other => exact resident
  | clear => exact absurd rfl stays.2

/-- A pinned resident stays as long as it is not unpinned and the cache is not cleared. -/
theorem IsOrderly.resident_run {operations : List CacheOperation}
    (orderly : cache.IsOrderly settings) (pinned : cache.isPinned signature = true)
    (resident : cache.contains signature = true)
    (stays : ∀ operation ∈ operations, operation ≠ .unpin signature ∧ operation ≠ .clear) :
    (cache.run settings operations).contains signature = true := by
  induction operations generalizing cache with
  | nil => exact resident
  | cons operation operations ih =>
    obtain ⟨pinned, resident⟩ :=
      orderly.resident_step pinned resident (stays operation (List.mem_cons_self ..))
    exact ih (orderly.step operation) pinned resident fun other present =>
      stays other (List.mem_cons_of_mem _ present)

/-! ## Misses -/

/-- Beside the entry of its own signature, a miss changes the entries by at most one, which was
unpinned in a full cache. -/
theorem IsOrderly.removed_of_miss (orderly : cache.IsOrderly settings)
    (missing : cache.contains signature = false) :
    ∃ removed : List CacheEntry, removed.length ≤ 1 ∧
      (∀ entry ∈ removed, cache.isPinned entry.signature = false ∧ cache.size = cache.capacity) ∧
      cache.entries.Perm (removed ++
        (cache.get settings signature).2.entries.filter (·.signature ≠ signature)) := by
  obtain ⟨removed, kept, entries, _, _, result, isNew, _, unpinned, atMostOne, perm, _⟩ :=
    orderly.get_spec signature
  have others : ∀ entry ∈ cache.entries, entry.signature ≠ signature := by
    intro entry present same
    have contained := contains_iff.mpr ⟨entry, present, same⟩
    rw [missing] at contained
    contradiction
  have keptGone : kept.filter (·.signature ≠ signature) = [] := by
    rw [List.filter_eq_nil_iff]
    intro entry present
    simp [(isNew entry present).1]
  have othersStay : cache.entries.filter (·.signature ≠ signature) = cache.entries := by
    rw [List.filter_eq_self]
    intro entry present
    simpa using others entry present
  have filtered := perm.filter (·.signature ≠ signature)
  rw [List.filter_append, List.filter_append, keptGone, othersStay, List.nil_append] at filtered
  rw [result]
  refine ⟨removed.filter (·.signature ≠ signature), ?_, ?_, filtered.symm⟩
  · exact Nat.le_trans (List.length_filter_le _ _) atMostOne
  · intro entry present
    exact unpinned entry (List.mem_filter.mp present).1

/-! ## Counters -/

/-- Below the limit of the counters, an operation counts the descriptors it hands out. -/
theorem IsOrderly.counters_step (orderly : cache.IsOrderly settings) (operation : CacheOperation)
    (below : cache.hits + cache.misses + cache.served settings operation ≤ counterLimit) :
    (cache.step settings operation).hits + (cache.step settings operation).misses =
      cache.hits + cache.misses + cache.served settings operation := by
  cases operation with
  | get signature =>
    rcases cache.get_cases settings signature with ⟨descriptor, _, got⟩ |
      ⟨descriptor, _, _, got⟩ | ⟨error, _, _, got⟩
    · simp only [served, got] at below ⊢
      simp only [Cache.step, got, countUp]
      omega
    · obtain ⟨_, _, _, _, result, _⟩ :=
        keep_spec settings orderly.fixed orderly.size_le ⟨signature, descriptor⟩
      simp only [served, got] at below ⊢
      simp only [Cache.step, got, result, countUp]
      omega
    · simp [Cache.step, served, got]
  | pin signature | unpin signature | clear => rfl

theorem IsOrderly.counters_run (orderly : cache.IsOrderly settings)
    (operations : List CacheOperation)
    (below : cache.hits + cache.misses + cache.servedBy settings operations ≤ counterLimit) :
    (cache.run settings operations).hits + (cache.run settings operations).misses =
      cache.hits + cache.misses + cache.servedBy settings operations := by
  induction operations generalizing cache with
  | nil => rfl
  | cons operation operations ih =>
    rw [servedBy] at below ⊢
    have first := orderly.counters_step operation (by omega)
    have rest := ih (orderly.step operation) (by omega)
    calc
      _ = (cache.step settings operation).hits + (cache.step settings operation).misses +
          (cache.step settings operation).servedBy settings operations := rest
      _ = _ := by omega

/-! ## Promises -/

structure Promises (settings : Settings) (capacity : Nat) (operations : List CacheOperation)
    (cache : Cache) : Prop where
  /-- The entries fit, also if a capacity of none was asked for. -/
  size_le : cache.size ≤ max capacity 1
  /-- No signature has two entries. -/
  distinct : (cache.entries.map (·.signature)).Nodup
  /-- Every lookup answers what a fresh preparation would. -/
  get_eq_prepare : ∀ signature,
    (cache.get settings signature).1 = Descriptor.prepare settings.verifyLayouts signature
  /-- A pinned resident stays until it is unpinned or the cache is cleared. -/
  resident : ∀ signature later, cache.isPinned signature = true → cache.contains signature = true →
    (∀ operation ∈ later, operation ≠ .unpin signature ∧ operation ≠ .clear) →
      (cache.run settings later).contains signature = true
  /-- A miss gives up at most one entry, which is not pinned, and only if the cache is full. -/
  removed : ∀ signature, cache.contains signature = false →
    ∃ removed : List CacheEntry, removed.length ≤ 1 ∧
      (∀ entry ∈ removed, cache.isPinned entry.signature = false ∧ cache.size = max capacity 1) ∧
      cache.entries.Perm (removed ++
        (cache.get settings signature).2.entries.filter (·.signature ≠ signature))
  /-- A signature that cannot be prepared leaves the cache as it was. -/
  unchanged : ∀ signature error, (cache.get settings signature).1 = .error error →
    (cache.get settings signature).2 = cache
  /-- Every descriptor that was handed out was counted, as a hit or as a miss. -/
  counted : (ofCapacity capacity).servedBy settings operations ≤ counterLimit →
    cache.hits + cache.misses = (ofCapacity capacity).servedBy settings operations

/-- A cache of fixed capacity keeps its promises after every history. -/
theorem promises_run (settings : Settings) (capacity : Nat) (operations : List CacheOperation) :
    Promises settings capacity operations ((ofCapacity capacity).run settings operations) := by
  have start := isOrderly_ofCapacity settings capacity
  have orderly := start.run operations
  have capacity_eq : ((ofCapacity capacity).run settings operations).capacity = max capacity 1 :=
    start.capacity_run operations
  constructor
  case size_le => exact capacity_eq ▸ orderly.size_le
  case distinct => exact orderly.distinct
  case get_eq_prepare => exact orderly.get_eq_prepare
  case resident =>
    intro signature later pinned resident stays
    exact orderly.resident_run pinned resident stays
  case removed =>
    intro signature missing
    rw [← capacity_eq]
    exact orderly.removed_of_miss missing
  case unchanged =>
    intro signature error failed
    rw [get_of_error failed]
  case counted =>
    intro below
    have counted := start.counters_run operations
    simp only [ofCapacity, Nat.zero_add] at counted
    exact counted below

end Cache

end ForeignCall
