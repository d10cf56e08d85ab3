import Mathlib.Data.List.Basic
import ForeignCall.Call.Cache

/-! # Eviction

What one operation on a cache may do to its entries. Eviction only reorders entries and gives up at
most one, which is not pinned (`evict_spec`); room is made in a full cache alone
(`makeRoom_spec`). A cache that takes up a new descriptor first takes over the capacity in force, if
it follows the settings; of what is left then it keeps every pinned entry, and it never holds more
entries than its capacity (`keep_resize_spec`).
-/

namespace ForeignCall

namespace Cache

variable {cache : Cache} {signature : Signature}

theorem contains_iff : cache.contains signature = true ↔
    ∃ entry ∈ cache.entries, entry.signature = signature := by
  simp [contains]

/-- A signature without an entry has no descriptor to look up. -/
theorem lookup?_eq_none_iff : cache.lookup? signature = none ↔ cache.contains signature = false := by
  simp [lookup?, contains]

/-- A descriptor that is found belongs to an entry of the signature. -/
theorem mem_of_lookup? {descriptor : Descriptor} (found : cache.lookup? signature = some descriptor) :
    ⟨signature, descriptor⟩ ∈ cache.entries := by
  obtain ⟨entry, isFirst, rfl⟩ := Option.map_eq_some_iff.mp found
  have present := List.mem_of_find?_eq_some isFirst
  have same : entry.signature = signature := by simpa using List.find?_some isFirst
  rw [← same]
  exact present

/-- Eviction splits the entries into at most one that is given up, and the rest. -/
theorem evict_spec (isPinned : Signature → Bool) (attempts : Nat) (entries : List CacheEntry) :
    ∃ removed : List CacheEntry, (∀ entry ∈ removed, isPinned entry.signature = false) ∧
      removed.length = (evict isPinned attempts entries).1.toNat ∧
      (removed ++ (evict isPinned attempts entries).2).Perm entries := by
  induction attempts generalizing entries with
  | zero => exact ⟨[], by simp, rfl, .refl _⟩
  | succ attempts ih =>
    unfold evict
    split
    next => exact ⟨[], by simp, rfl, .refl _⟩
    next earliest isLast =>
      have split_eq : entries.dropLast ++ [earliest] = entries :=
        List.dropLast_append_getLast? earliest isLast
      have rotated : (earliest :: entries.dropLast).Perm entries :=
        (List.perm_append_singleton earliest entries.dropLast).symm.trans (.of_eq split_eq)
      split
      next pinned =>
        obtain ⟨removed, unpinned, length, perm⟩ := ih (earliest :: entries.dropLast)
        exact ⟨removed, unpinned, length, perm.trans rotated⟩
      next unpinned => exact ⟨[earliest], by simpa using unpinned, rfl, rotated⟩

/-- Making room gives up at most one entry, and none unless the cache is full; if there is room
afterwards, one more entry fits. -/
theorem makeRoom_spec (size_le : cache.size ≤ cache.capacity) :
    ∃ removed entries : List CacheEntry, cache.makeRoom.2 = { cache with entries := entries } ∧
      (∀ entry ∈ removed, cache.isPinned entry.signature = false ∧ cache.size = cache.capacity) ∧
      removed.length ≤ 1 ∧ (removed ++ entries).Perm cache.entries ∧
      (cache.makeRoom.1 = true → entries.length < cache.capacity) := by
  by_cases room : cache.entries.length < cache.capacity
  · have same : cache.makeRoom = (true, cache) := by rw [makeRoom, if_pos room]
    rw [same]
    exact ⟨[], cache.entries, rfl, by simp, by simp, .refl _, fun _ => room⟩
  · have full : cache.size = cache.capacity := Nat.le_antisymm size_le (Nat.le_of_not_lt room)
    have evicted : cache.makeRoom = ((evict cache.isPinned cache.entries.length cache.entries).1,
        { cache with entries := (evict cache.isPinned cache.entries.length cache.entries).2 }) := by
      rw [makeRoom, if_neg room]
    obtain ⟨removed, unpinned, length, perm⟩ :=
      evict_spec cache.isPinned cache.entries.length cache.entries
    rw [evicted]
    refine ⟨removed, _, rfl, fun entry present => ⟨unpinned entry present, full⟩, ?_, perm, ?_⟩
    · rw [length]
      exact Bool.toNat_le _
    · intro done
      have total := perm.length_eq
      rw [List.length_append, length, done, Bool.toNat_true] at total
      have bound : cache.entries.length ≤ cache.capacity := size_le
      omega

/-- A cache that takes over a smaller capacity gives up its last entries, and no pins. -/
theorem resize_spec (settings : Settings) (size_le : cache.size ≤ cache.capacity) :
    (cache.resize settings).size ≤ (cache.resize settings).capacity ∧
      (cache.resize settings).entries.Sublist cache.entries ∧
      (cache.resize settings).pinned = cache.pinned := by
  unfold resize
  split
  · exact ⟨List.length_take_le _ _, List.take_sublist _ _, rfl⟩
  · exact ⟨size_le, .refl _, rfl⟩

/-- Taking up an entry changes neither the pins nor where the capacity comes from. -/
theorem keep_frame (settings : Settings) (cache : Cache) (entry : CacheEntry) :
    (cache.keep settings entry).pinned = cache.pinned ∧
      (cache.keep settings entry).followsSettings = cache.followsSettings := by
  have resized : (cache.resize settings).pinned = cache.pinned ∧
      (cache.resize settings).followsSettings = cache.followsSettings := by
    unfold resize
    split <;> exact ⟨rfl, rfl⟩
  have roomy (cache : Cache) : cache.makeRoom.2.pinned = cache.pinned ∧
      cache.makeRoom.2.followsSettings = cache.followsSettings := by
    unfold makeRoom
    split <;> exact ⟨rfl, rfl⟩
  have kept : (cache.keep settings entry).pinned = (cache.resize settings).makeRoom.2.pinned ∧
      (cache.keep settings entry).followsSettings =
        (cache.resize settings).makeRoom.2.followsSettings := by
    simp only [keep]
    split <;> exact ⟨rfl, rfl⟩
  exact ⟨kept.1.trans ((roomy _).1.trans resized.1), kept.2.trans ((roomy _).2.trans resized.2)⟩

/-- Taking up an entry first takes over the capacity in force, and then gives up at most one other
entry, unpinned and only from a full cache. Whether the new entry is kept or not, the cache stays
within that capacity, and a miss is counted. -/
theorem keep_resize_spec (settings : Settings) (size_le : cache.size ≤ cache.capacity)
    (entry : CacheEntry) :
    ∃ removed kept entries : List CacheEntry, kept.Sublist [entry] ∧
      cache.keep settings entry =
        { cache.resize settings with entries := entries,
                                     misses := countUp (cache.resize settings).misses } ∧
      (∀ other ∈ removed, cache.isPinned other.signature = false ∧
        (cache.resize settings).size = (cache.resize settings).capacity) ∧
      removed.length ≤ 1 ∧ (removed ++ entries).Perm (kept ++ (cache.resize settings).entries) ∧
      entries.length ≤ (cache.resize settings).capacity := by
  obtain ⟨resized_le, _, pinned_eq⟩ := resize_spec settings size_le
  obtain ⟨removed, entries, changed, unpinned, atMostOne, perm, room⟩ := makeRoom_spec resized_le
  have isPinned_eq : (cache.resize settings).isPinned = cache.isPinned := by
    funext signature
    rw [isPinned, isPinned, pinned_eq]
  rw [isPinned_eq] at unpinned
  cases done : (cache.resize settings).makeRoom.1 with
  | true =>
    refine ⟨removed, [entry], entry :: entries, .refl _, ?_, unpinned, atMostOne, ?_, room done⟩
    · simp [keep, done, changed]
    · exact List.perm_middle.trans (perm.cons entry)
  | false =>
    refine ⟨removed, [], entries, List.nil_sublist _, ?_, unpinned, atMostOne, perm, ?_⟩
    · simp [keep, done, changed]
    · have total := perm.length_eq
      rw [List.length_append] at total
      have bound : (cache.resize settings).entries.length ≤ (cache.resize settings).capacity :=
        resized_le
      omega

/-- A cache of fixed capacity takes up an entry under its own capacity. -/
theorem keep_spec (settings : Settings) (fixed : cache.followsSettings = false)
    (size_le : cache.size ≤ cache.capacity) (entry : CacheEntry) :
    ∃ removed kept entries : List CacheEntry, kept.Sublist [entry] ∧
      cache.keep settings entry =
        { cache with entries := entries, misses := countUp cache.misses } ∧
      (∀ other ∈ removed, cache.isPinned other.signature = false ∧ cache.size = cache.capacity) ∧
      removed.length ≤ 1 ∧ (removed ++ entries).Perm (kept ++ cache.entries) ∧
      entries.length ≤ cache.capacity := by
  have unresized : cache.resize settings = cache := by simp [resize, fixed]
  have taken := keep_resize_spec settings size_le entry
  rwa [unresized] at taken

end Cache

end ForeignCall
