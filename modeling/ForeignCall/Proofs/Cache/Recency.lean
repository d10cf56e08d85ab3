import ForeignCall.Proofs.Cache.Following

/-! # The order in which entries are given up

A cache of fixed capacity with nothing pinned is a queue: a new descriptor goes to the front, and a
full cache gives up the entry at the back. A hit leaves the queue as it is, so the entry that is given
up is the one that was taken up earliest (`ConfiguredCache.given_up_iff_earliest`). That is not always
the least recently used one, since hits do not count.
-/

namespace ForeignCall

/-- A lookup, or a change of the settings. -/
def CacheEvent.IsLookup : CacheEvent → Prop
  | .configure _ => True
  | .operate (.get _) => True
  | .operate _ => False

namespace Cache

variable {cache : Cache} {settings : Settings} {signature : Signature} {capacity : Nat}

/-- A cache of fixed capacity with nothing pinned. -/
structure IsPlain (capacity : Nat) (cache : Cache) : Prop where
  fixed : cache.followsSettings = false
  unpinned : cache.pinned = []
  capacity_eq : cache.capacity = max capacity 1
  size_le : cache.size ≤ cache.capacity
  distinct : (cache.entries.map (·.signature)).Nodup

theorem isPlain_ofCapacity (capacity : Nat) : (ofCapacity capacity).IsPlain capacity :=
  ⟨rfl, rfl, rfl, Nat.zero_le _, List.nodup_nil⟩

/-- The entries that stay when a new one is put before them. -/
def staying (cache : Cache) : List CacheEntry :=
  if cache.size < cache.capacity then cache.entries else cache.entries.dropLast

theorem staying_sublist (cache : Cache) : cache.staying.Sublist cache.entries := by
  unfold staying
  split
  · exact .refl _
  · exact List.dropLast_sublist _

/-- A new descriptor goes to the front, and if the cache is full, the entry at the back is given up. -/
theorem IsPlain.keep_eq (plain : cache.IsPlain capacity) (settings : Settings) (entry : CacheEntry) :
    cache.keep settings entry =
      { cache with entries := entry :: cache.staying, misses := countUp cache.misses } := by
  have unresized : cache.resize settings = cache := by simp [resize, plain.fixed]
  by_cases room : cache.size < cache.capacity
  · have roomy : cache.makeRoom = (true, cache) := if_pos room
    simp only [keep, unresized, roomy, staying, if_pos room, ↓reduceIte]
  · have evicted : evict cache.isPinned cache.entries.length cache.entries =
        (true, cache.entries.dropLast) := by
      have positive : 0 < cache.entries.length := by
        have := plain.capacity_eq
        simp only [size] at room
        omega
      obtain ⟨attempts, attempts_eq⟩ := Nat.exists_eq_add_one.mpr positive
      have last := List.getLast?_eq_some_getLast (List.ne_nil_of_length_pos positive)
      rw [attempts_eq, evict, last]
      simp [isPinned, plain.unpinned]
    have roomy : cache.makeRoom = (true, { cache with entries := cache.entries.dropLast }) := by
      have full : ¬cache.entries.length < cache.capacity := room
      rw [makeRoom, if_neg full, evicted]
    simp only [keep, unresized, roomy, staying, if_neg room, ↓reduceIte]

/-- What a lookup does to the queue: a hit and a failure leave it, a new descriptor enters it. -/
theorem IsPlain.get_cases (plain : cache.IsPlain capacity) (settings : Settings)
    (signature : Signature) :
    (cache.contains signature = true ∧ (cache.get settings signature).1.isOk = true ∧
      (cache.get settings signature).2.entries = cache.entries) ∨
    (∃ descriptor, cache.contains signature = false ∧
      Descriptor.prepare settings.verifyLayouts signature = .ok descriptor ∧
      (cache.get settings signature).1 = .ok descriptor ∧
      (cache.get settings signature).2.entries = ⟨signature, descriptor⟩ :: cache.staying) ∨
    ∃ error, cache.contains signature = false ∧
      Descriptor.prepare settings.verifyLayouts signature = .error error ∧
      (cache.get settings signature).1 = .error error ∧
      (cache.get settings signature).2.entries = cache.entries := by
  rcases cache.get_cases settings signature with ⟨descriptor, found, got⟩ |
    ⟨descriptor, missing, prepared, got⟩ | ⟨error, missing, failed, got⟩
  · left
    rw [got]
    exact ⟨contains_iff.mpr ⟨_, mem_of_lookup? found, rfl⟩, rfl, rfl⟩
  · right; left
    rw [got, plain.keep_eq]
    exact ⟨descriptor, lookup?_eq_none_iff.mp missing, prepared, rfl, rfl⟩
  · right; right
    rw [got]
    exact ⟨error, lookup?_eq_none_iff.mp missing, failed, rfl, rfl⟩

theorem IsPlain.get (plain : cache.IsPlain capacity) (settings : Settings) (signature : Signature) :
    (cache.get settings signature).2.IsPlain capacity := by
  obtain ⟨pinned_eq, follows_eq⟩ := get_frame settings cache signature
  obtain ⟨_, _, _, _, _, _, _, bounded⟩ := get_entries settings plain.size_le signature
  refine ⟨follows_eq.trans plain.fixed, pinned_eq.trans plain.unpinned, ?_, bounded,
    distinct_get settings plain.size_le plain.distinct signature⟩
  rcases Cache.get_cases settings cache signature with ⟨_, _, got⟩ | ⟨_, _, _, got⟩ | ⟨_, _, _, got⟩
  · rw [got]
    exact plain.capacity_eq
  · rw [got, plain.keep_eq]
    exact plain.capacity_eq
  · rw [got]
    exact plain.capacity_eq

end Cache

namespace ConfiguredCache

variable {state : ConfiguredCache} {signature victim : Signature} {event : CacheEvent}
  {events : List CacheEvent} {capacity : Nat}

def fixed (settings : Settings) (capacity : Nat) : ConfiguredCache :=
  ⟨settings, .ofCapacity capacity⟩

/-! ## When something happened last -/

/-- The number of events up to the last one of a kind, and zero if there is none. What kind an event
is of may depend on the state before it. -/
def latest (isOfKind : ConfiguredCache → CacheEvent → Bool) (state : ConfiguredCache) :
    List CacheEvent → Nat
  | [] => 0
  | event :: events =>
    match latest isOfKind (state.step event) events with
    | 0 => if isOfKind state event then 1 else 0
    | last + 1 => last + 2

variable {isOfKind isOfOther : ConfiguredCache → CacheEvent → Bool}

theorem latest_concat (isOfKind : ConfiguredCache → CacheEvent → Bool) (state : ConfiguredCache)
    (events : List CacheEvent) (event : CacheEvent) :
    latest isOfKind state (events ++ [event]) =
      if isOfKind (state.run events) event then events.length + 1
      else latest isOfKind state events := by
  induction events generalizing state with
  | nil => rfl
  | cons first events ih =>
    rw [List.cons_append, latest, ih]
    change (match if isOfKind ((state.step first).run events) event then _ else _ with
      | 0 => _
      | last + 1 => _) = if isOfKind ((state.step first).run events) event then _ else _
    split <;> rename_i same <;> split at same <;> simp_all [latest]

theorem latest_le (isOfKind : ConfiguredCache → CacheEvent → Bool) (state : ConfiguredCache)
    (events : List CacheEvent) : latest isOfKind state events ≤ events.length := by
  induction events using List.reverseRecOn with
  | nil => exact Nat.le_refl 0
  | append_singleton events event ih =>
    rw [latest_concat, List.length_append, List.length_singleton]
    split
    · exact Nat.le_refl _
    · exact Nat.le_succ_of_le ih

/-- Of more kinds of events, the last one is no earlier. -/
theorem latest_mono (wider : ∀ state event, isOfKind state event = true → isOfOther state event = true)
    (state : ConfiguredCache) (events : List CacheEvent) :
    latest isOfKind state events ≤ latest isOfOther state events := by
  induction events using List.reverseRecOn with
  | nil => exact Nat.le_refl 0
  | append_singleton events event ih =>
    rw [latest_concat, latest_concat]
    by_cases occurs : isOfKind (state.run events) event = true
    · simp only [if_pos occurs, if_pos (wider _ _ occurs), Nat.le_refl]
    · rw [if_neg occurs]
      split
      · exact Nat.le_succ_of_le (latest_le ..)
      · exact ih

/-- A lookup that hands out a descriptor of a signature. -/
def uses (signature : Signature) (state : ConfiguredCache) : CacheEvent → Bool
  | .operate (.get other) =>
    decide (other = signature) && (state.cache.get state.settings other).1.isOk
  | _ => false

/-- A lookup that hands out a new descriptor of a signature, which had no entry before. -/
def takesUp (signature : Signature) (state : ConfiguredCache) (event : CacheEvent) : Bool :=
  uses signature state event && !state.cache.contains signature

def lastUse (state : ConfiguredCache) (events : List CacheEvent) (signature : Signature) : Nat :=
  latest (uses signature) state events

def lastTaken (state : ConfiguredCache) (events : List CacheEvent) (signature : Signature) : Nat :=
  latest (takesUp signature) state events

/-- Of all residents, a signature has the earliest time. -/
def IsEarliest (time : Signature → Nat) (cache : Cache) (signature : Signature) : Prop :=
  ∀ other, cache.contains other = true → other ≠ signature → time signature < time other

theorem lastTaken_le_lastUse (state : ConfiguredCache) (events : List CacheEvent)
    (signature : Signature) : state.lastTaken events signature ≤ state.lastUse events signature :=
  latest_mono (fun _ _ taken => (Bool.and_eq_true_iff.mp taken).1) state events

/-! ## The queue -/

/-- After the events, the entries stand in the order in which they were taken up, the latest first. -/
structure IsQueue (capacity : Nat) (state : ConfiguredCache) (events : List CacheEvent) : Prop where
  plain : (state.run events).cache.IsPlain capacity
  order : (state.run events).cache.entries.Pairwise fun later earlier =>
    state.lastTaken events earlier.signature < state.lastTaken events later.signature

/-- An event that takes up no signature leaves the order as it is. -/
theorem IsQueue.unchanged (queue : IsQueue capacity state events)
    (plain : ((state.run events).step event).cache.IsPlain capacity)
    (same : ((state.run events).step event).cache.entries = (state.run events).cache.entries)
    (none : ∀ signature, takesUp signature (state.run events) event = false) :
    IsQueue capacity state (events ++ [event]) := by
  have run_eq : state.run (events ++ [event]) = (state.run events).step event := run_append ..
  refine ⟨run_eq ▸ plain, ?_⟩
  rw [run_eq, same]
  refine queue.order.imp fun before => ?_
  simpa only [lastTaken, latest_concat, none, Bool.false_eq_true, ↓reduceIte] using before

/-- A lookup or a change of the settings keeps the queue in order. -/
theorem IsQueue.step (queue : IsQueue capacity state events) (lookup : event.IsLookup) :
    IsQueue capacity state (events ++ [event]) := by
  match event, lookup with
  | .configure settings, _ => exact queue.unchanged queue.plain rfl fun _ => rfl
  | .operate (.get signature), _ =>
    have plain := queue.plain.get (state.run events).settings signature
    rcases queue.plain.get_cases (state.run events).settings signature with
      ⟨resident, _, same⟩ | ⟨descriptor, missing, _, got, changed⟩ | ⟨error, _, _, got, same⟩
    · refine queue.unchanged plain same fun other => ?_
      by_cases isOther : signature = other
      · subst isOther
        simp [takesUp, resident]
      · simp [takesUp, uses, isOther]
    · have run_eq : state.run (events ++ [.operate (.get signature)]) =
          (state.run events).step (.operate (.get signature)) := run_append ..
      have taken : state.lastTaken (events ++ [.operate (.get signature)]) signature =
          events.length + 1 := by
        rw [lastTaken, latest_concat, if_pos]
        simp [takesUp, uses, missing, got, Except.isOk, Except.toBool]
      -- The entries that are left are of other signatures, so what is known of them does not change.
      have older : ∀ entry ∈ (state.run events).cache.entries,
          state.lastTaken (events ++ [.operate (.get signature)]) entry.signature =
            state.lastTaken events entry.signature := by
        intro entry present
        have different : signature ≠ entry.signature := by
          rintro same
          rw [Cache.contains_iff.mpr ⟨entry, present, same.symm⟩] at missing
          contradiction
        rw [lastTaken, latest_concat, if_neg]
        · rfl
        · simp [takesUp, uses, different]
      refine ⟨run_eq ▸ plain, ?_⟩
      rw [run_eq]
      change ((state.run events).cache.get (state.run events).settings signature).2.entries.Pairwise _
      rw [changed, List.pairwise_cons]
      have staying := (state.run events).cache.staying_sublist
      constructor
      · intro entry stays
        rw [older entry (staying.subset stays), taken]
        exact Nat.lt_succ_of_le (latest_le ..)
      · refine (queue.order.sublist staying).imp_of_mem fun stays stays' before => ?_
        rwa [older _ (staying.subset stays), older _ (staying.subset stays')]
    · refine queue.unchanged plain same fun other => ?_
      simp [takesUp, uses, got, Except.isOk, Except.toBool]

theorem isQueue_run (settings : Settings) (capacity : Nat) (lookups : ∀ event ∈ events, event.IsLookup) :
    IsQueue capacity (fixed settings capacity) events := by
  induction events using List.reverseRecOn with
  | nil => exact ⟨Cache.isPlain_ofCapacity capacity, List.Pairwise.nil⟩
  | append_singleton events event ih =>
    exact (ih fun other present => lookups other (List.mem_append_left _ present)).step
      (lookups event (by simp))

/-- The entry at the back of the queue is the one that was taken up earliest. -/
theorem IsQueue.at_back_iff (queue : IsQueue capacity state events)
    (resident : (state.run events).cache.contains victim = true) :
    (∀ entry ∈ (state.run events).cache.entries.dropLast, entry.signature ≠ victim) ↔
      IsEarliest (state.lastTaken events) (state.run events).cache victim := by
  obtain ⟨entry, present, rfl⟩ := Cache.contains_iff.mp resident
  have split_eq := List.dropLast_append_getLast (List.ne_nil_of_mem present)
  generalize (state.run events).cache.entries.getLast _ = last at split_eq
  have order := queue.order
  rw [← split_eq, List.pairwise_append] at order
  have back : ∀ earlier ∈ (state.run events).cache.entries.dropLast,
      state.lastTaken events last.signature < state.lastTaken events earlier.signature :=
    fun earlier before => order.2.2 earlier before last (List.mem_singleton_self last)
  have cases : ∀ other ∈ (state.run events).cache.entries,
      other ∈ (state.run events).cache.entries.dropLast ∨ other = last := by
    intro other
    rw [← split_eq]
    simp
  constructor
  · intro isLast other resident different
    have same : entry = last := (cases entry present).resolve_left fun before =>
      isLast entry before rfl
    obtain ⟨another, present', rfl⟩ := Cache.contains_iff.mp resident
    rw [same]
    refine back another ((cases another present').resolve_right fun isLast => different ?_)
    rw [isLast, same]
  · intro earliest earlier before same
    have lastResident : (state.run events).cache.contains last.signature = true :=
      Cache.contains_iff.mpr ⟨last, split_eq ▸ List.mem_concat_self, rfl⟩
    have later := same ▸ back earlier before
    have sooner := earliest last.signature lastResident fun isVictim => by
      rw [isVictim] at later
      exact Nat.lt_irrefl _ later
    exact Nat.lt_asymm later sooner

/-- A lookup gives up the entry at the back of a full queue if it takes up a new descriptor, and
nothing else. -/
theorem given_up_iff_at_back (plain : state.cache.IsPlain capacity) (signature : Signature)
    (resident : state.cache.contains victim = true) :
    (state.step (.operate (.get signature))).cache.contains victim = false ↔
      takesUp signature state (.operate (.get signature)) = true ∧
        state.cache.size = max capacity 1 ∧
        ∀ entry ∈ state.cache.entries.dropLast, entry.signature ≠ victim := by
  change (state.cache.get state.settings signature).2.contains victim = false ↔ _
  rcases plain.get_cases state.settings signature with
    ⟨found, _, same⟩ | ⟨descriptor, missing, _, got, changed⟩ | ⟨error, _, _, got, same⟩
  · have stays : (state.cache.get state.settings signature).2.contains victim = true := by
      rwa [Cache.contains, same]
    simp [stays, takesUp, found]
  · have taken : takesUp signature state (.operate (.get signature)) = true := by
      simp [takesUp, uses, missing, got, Except.isOk, Except.toBool]
    have different : signature ≠ victim := by
      rintro rfl
      rw [resident] at missing
      contradiction
    have left : (state.cache.get state.settings signature).2.contains victim = false ↔
        ∀ entry ∈ state.cache.staying, entry.signature ≠ victim := by
      simp [Cache.contains, changed, different]
    rw [left, ← plain.capacity_eq]
    by_cases room : state.cache.size < state.cache.capacity
    · obtain ⟨entry, present, same⟩ := Cache.contains_iff.mp resident
      rw [Cache.staying, if_pos room]
      exact iff_of_false (fun gone => gone entry present same) fun full => Nat.ne_of_lt room full.2.1
    · have full : state.cache.size = state.cache.capacity :=
        Nat.le_antisymm plain.size_le (Nat.le_of_not_lt room)
      rw [Cache.staying, if_neg room]
      exact ⟨fun gone => ⟨taken, full, gone⟩, fun gone => gone.2.2⟩
  · have stays : (state.cache.get state.settings signature).2.contains victim = true := by
      rwa [Cache.contains, same]
    simp [stays, takesUp, uses, got, Except.isOk, Except.toBool]

/-- After any lookups in a new cache of fixed capacity, under settings that may change, a lookup gives
up a resident exactly if it takes up a new descriptor, the cache is full, and the resident is the one
that was taken up earliest. If it was not used since, it is the least recently used one. -/
theorem given_up_iff_earliest (settings : Settings) (capacity : Nat) (events : List CacheEvent)
    (signature victim : Signature) (lookups : ∀ event ∈ events, event.IsLookup)
    (resident : ((fixed settings capacity).run events).cache.contains victim = true) :
    ((((fixed settings capacity).run events).step
          (.operate (.get signature))).cache.contains victim = false ↔
        takesUp signature ((fixed settings capacity).run events) (.operate (.get signature)) = true ∧
          ((fixed settings capacity).run events).cache.size = max capacity 1 ∧
          IsEarliest ((fixed settings capacity).lastTaken events)
            ((fixed settings capacity).run events).cache victim) ∧
      ((((fixed settings capacity).run events).step
          (.operate (.get signature))).cache.contains victim = false →
        (fixed settings capacity).lastUse events victim =
            (fixed settings capacity).lastTaken events victim →
          IsEarliest ((fixed settings capacity).lastUse events)
            ((fixed settings capacity).run events).cache victim) := by
  have queue := isQueue_run settings capacity lookups
  have given_up := given_up_iff_at_back queue.plain signature resident
  rw [queue.at_back_iff resident] at given_up
  refine ⟨given_up, fun gone unused other present different => ?_⟩
  rw [unused]
  exact Nat.lt_of_lt_of_le ((given_up.mp gone).2.2 other present different)
    (lastTaken_le_lastUse _ events other)

/-- Two signatures are taken up. -/
def takingEvents : List CacheEvent :=
  [.operate (.get (thunk .void)), .operate (.get (thunk (.scalar .int)))]

theorem given_up_iff_earliest_unused :
    ((fixed {} 2).run takingEvents).cache.contains (thunk .void) = true ∧
      (((fixed {} 2).run takingEvents).step
        (.operate (.get (thunk (.scalar .double))))).cache.contains (thunk .void) = false ∧
      IsEarliest ((fixed {} 2).lastUse takingEvents) ((fixed {} 2).run takingEvents).cache
        (thunk .void) := by
  have lookups : ∀ event ∈ takingEvents, event.IsLookup := by
    simp [takingEvents, CacheEvent.IsLookup]
  have resident : ((fixed {} 2).run takingEvents).cache.contains (thunk .void) = true := by
    decide +kernel
  have gone : (((fixed {} 2).run takingEvents).step
      (.operate (.get (thunk (.scalar .double))))).cache.contains (thunk .void) = false := by
    decide +kernel
  exact ⟨resident, gone, (given_up_iff_earliest {} 2 _ (thunk (.scalar .double)) _ lookups
    resident).2 gone (by decide +kernel)⟩

/-- The first of two signatures is used again. -/
def reusingEvents : List CacheEvent := takingEvents ++ [.operate (.get (thunk .void))]

/-- A resident can be given up although it is not the least recently used one. -/
theorem recently_used_given_up :
    ¬∀ (settings : Settings) (capacity : Nat) (events : List CacheEvent)
      (signature victim : Signature), (∀ event ∈ events, event.IsLookup) →
      ((fixed settings capacity).run events).cache.contains victim = true →
      (((fixed settings capacity).run events).step
        (.operate (.get signature))).cache.contains victim = false →
      IsEarliest ((fixed settings capacity).lastUse events)
        ((fixed settings capacity).run events).cache victim := by
  intro leastRecent
  have before : (fixed {} 2).lastUse reusingEvents (thunk .void) <
      (fixed {} 2).lastUse reusingEvents (thunk (.scalar .int)) :=
    leastRecent {} 2 reusingEvents (thunk (.scalar .double)) (thunk .void)
      (by simp [reusingEvents, takingEvents, CacheEvent.IsLookup]) (by decide +kernel)
      (by decide +kernel) (thunk (.scalar .int)) (by decide +kernel) (by decide +kernel)
  revert before
  decide +kernel

end ConfiguredCache

end ForeignCall
