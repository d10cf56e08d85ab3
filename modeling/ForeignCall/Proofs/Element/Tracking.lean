import ForeignCall.Proofs.Element.Natural
import ForeignCall.Proofs.Layout.Soundness

/-! # Elements follow the cursor

While the members of a structure are placed, their elements are natural and end before the cursor or,
after a bitfield, at the end of the storage unit that holds the last bits before the cursor
(`Runs.Tracks`). Each member adds its bytes and its alignment to what the elements cover
(`Layout.span`): one that shares bytes with a unit asks for less alignment than the unit. Elements that
reach the cursor and are aligned as it is have the layout that the type model finds
(`Runs.Tracks.layout_eq`).
-/

namespace ForeignCall

/-- A layout that covers a part at an offset as well. -/
def Layout.span (whole : Layout) (offset : Nat) (part : Layout) : Layout :=
  ⟨max whole.size (offset + part.size), max whole.alignment part.alignment⟩

namespace Runs

variable {runs : Runs} {element : Element} {bit offset : Nat}

/-- The elements end with a storage unit in which bits before a bit lie. -/
structure EndsInUnit (runs : Runs) (bit offset unit : Nat) : Prop where
  stop_eq : stop runs = offset + unit
  isUnit : unit = 4 ∨ unit = 8
  aligned : unit ∣ offset
  after : 8 * offset < bit
  alignment_le : unit ≤ runs.layout.alignment

/-- Elements that lie before a bit, up to the end of a storage unit. -/
structure Tracks (runs : Runs) (bit : Nat) : Prop where
  natural : runs.IsNatural
  nonempty : runs ≠ [] → 0 < stop runs
  reaches : bit < 8 * stop runs → ∃ offset unit, runs.EndsInUnit bit offset unit

theorem tracks_start : Tracks [] 0 :=
  ⟨isNatural_nil, fun nonempty => absurd rfl nonempty, fun reached => absurd reached (Nat.lt_irrefl 0)⟩

/-- What a cursor passes over without an element leaves the elements behind it. -/
theorem Tracks.later {next : Nat} (tracks : runs.Tracks bit) (le : bit ≤ next) : runs.Tracks next where
  natural := tracks.natural
  nonempty := tracks.nonempty
  reaches := by
    intro reached
    obtain ⟨offset, unit, ends⟩ := tracks.reaches (Nat.lt_of_le_of_lt le reached)
    exact ⟨offset, unit, { ends with after := Nat.lt_of_lt_of_le ends.after le }⟩

theorem ne_nil_of_stop_pos (positive : 0 < stop runs) : runs ≠ [] := by
  rintro rfl
  exact absurd positive (Nat.lt_irrefl 0)

/-- Elements up to a bit, with the bytes and the alignment that they cover. -/
theorem IsNatural.tracks {next : Runs} {size alignment : Nat} (natural : next.IsNatural)
    (positive : 0 < size) (stop_eq : stop next = size) (alignment_eq : next.layout.alignment = alignment)
    (reaches : bit < 8 * size → ∃ offset unit, next.EndsInUnit bit offset unit) :
    next.Tracks bit ∧ next.layout = ⟨size, alignment⟩ := by
  refine ⟨⟨natural, fun _ => stop_eq ▸ positive, stop_eq ▸ reaches⟩, ?_⟩
  rw [← alignment_eq, ← stop_eq, ← natural.size_eq]

/-- A member that starts inside the elements shares bytes with their last storage unit, and is aligned
less strictly than the unit. -/
theorem Tracks.shared {alignment : Nat} (tracks : runs.Tracks bit) (sound : IsAlignment alignment)
    (aligned : alignment ∣ offset) (after : bit ≤ 8 * offset) (inside : offset < stop runs) :
    ∃ start unit, runs.EndsInUnit bit start unit ∧ alignment < unit := by
  obtain ⟨start, unit, ends⟩ := tracks.reaches (by omega)
  have starts := ends.after
  have stop_eq := ends.stop_eq
  refine ⟨start, unit, ends, ?_⟩
  exact lt_of_inside sound ends.isUnit ends.aligned aligned (by omega) (by omega)

/-- An ordinary member behind the bit is covered together with the elements before. -/
theorem Tracks.place (tracks : runs.Tracks bit) (sound : element.layout.IsSound)
    (positive : 0 < element.layout.size) (aligned : element.layout.alignment ∣ offset)
    (after : bit ≤ 8 * offset) :
    (runs.place offset element.layout element).Tracks (8 * (offset + element.layout.size)) ∧
      (runs.place offset element.layout element).layout = runs.layout.span offset element.layout := by
  have size_eq := tracks.natural.size_eq
  rw [Layout.span, size_eq]
  by_cases behind : stop runs ≤ offset
  · obtain ⟨natural, stop_eq, alignment⟩ := tracks.natural.place sound positive aligned behind
    apply natural.tracks
    · omega
    · omega
    · exact alignment
    · intro beyond
      omega
  have inside : offset < stop runs := by omega
  obtain ⟨start, unit, ends, less⟩ := tracks.shared sound.alignment aligned after inside
  have starts := ends.after
  have unit_le := ends.alignment_le
  rw [Nat.max_eq_left (Nat.le_trans (Nat.le_of_lt less) unit_le)]
  by_cases covered : offset + element.layout.size ≤ stop runs
  · rw [Runs.place, if_pos covered]
    apply tracks.natural.tracks
    · omega
    · omega
    · rfl
    · intro _
      exact ⟨start, unit, { ends with after := by omega }⟩
  · rw [Runs.place, if_neg covered, if_pos inside]
    obtain ⟨natural, stop_eq, filled⟩ :=
      tracks.natural.fill (Nat.le_of_lt (Nat.lt_of_not_le covered))
    apply natural.tracks
    · omega
    · omega
    · exact filled
    · intro beyond
      omega

/-- The elements of an array are covered together. -/
theorem Tracks.placeMany {count : Nat} (tracks : runs.Tracks bit) (sound : element.layout.IsSound)
    (positive : 0 < element.layout.size) (aligned : element.layout.alignment ∣ offset)
    (after : bit ≤ 8 * offset) :
    (runs.placeMany offset (count + 1) element.layout element).Tracks
        (8 * (offset + element.layout.size * (count + 1))) ∧
      (runs.placeMany offset (count + 1) element.layout element).layout =
        runs.layout.span offset ⟨element.layout.size * (count + 1), element.layout.alignment⟩ := by
  rw [Runs.placeMany]
  induction count with
  | zero => simpa using tracks.place sound positive aligned after
  | succ count ih =>
    obtain ⟨before, covers⟩ := ih
    rw [List.range_succ, List.foldl_append, List.foldl_cons, List.foldl_nil]
    have start_eq : offset + (count + 1) * element.layout.size =
        offset + element.layout.size * (count + 1) := by
      rw [Nat.mul_comm]
    rw [start_eq]
    obtain ⟨further, all⟩ := before.place sound positive
      (Nat.dvd_add aligned (Nat.dvd_mul_right_of_dvd sound.dvd_size (count + 1))) (Nat.le_refl _)
    rw [Nat.add_assoc, ← Nat.mul_succ] at further
    refine ⟨further, all.trans ?_⟩
    have longer : element.layout.size * (count + 1 + 1) =
        element.layout.size * (count + 1) + element.layout.size := Nat.mul_succ _ _
    simp only [covers, Layout.span, Layout.mk.injEq]
    omega

/-- The storage unit of a bitfield is covered as a whole. One of more than 32 bits has a unit that no
earlier unit covers. -/
theorem Tracks.placeUnit {cursor next : Cursor} {width unit : Nat} {position : Position}
    (tracks : runs.Tracks cursor.freeBit) (valid : cursor.IsValid) (nonempty : 0 < width)
    (storage : storageUnit? width = some unit)
    (placed : cursor.placeBits? width unit = some (position, next)) :
    (runs.placeUnit position.offset unit).Tracks next.freeBit ∧
      (runs.placeUnit position.offset unit).layout =
        runs.layout.span position.offset ⟨unit, unit⟩ := by
  obtain ⟨unitAlignment, fitting⟩ := Cursor.storageUnit?_spec storage
  have isUnit : unit = 4 ∨ unit = 8 ∧ 32 < width := by
    unfold storageUnit? at storage
    grind
  obtain ⟨start, _, aligned, inside, after, _, _, freeBit_eq⟩ :=
    Cursor.placeBits?_spec valid unitAlignment.pos fitting placed
  simp only [Layout.span, tracks.natural.size_eq]
  by_cases covered : position.offset + unit ≤ stop runs
  -- The unit lies in the one that holds the cursor. It is no wider than that one, because more than
  -- 32 bits that begin behind its middle would not end in it.
  · rw [Runs.placeUnit, if_pos covered]
    obtain ⟨first, old, ends⟩ := tracks.reaches (by omega)
    have starts := ends.after
    have stop_eq := ends.stop_eq
    have isOld := ends.isUnit
    have old_le := ends.alignment_le
    apply tracks.natural.tracks
    · omega
    · omega
    · omega
    · intro _
      exact ⟨first, old, { ends with after := by omega }⟩
  · have isUnit : unit = 4 ∨ unit = 8 := isUnit.imp_right And.left
    obtain ⟨natural, stop_eq, alignment⟩ :=
      tracks.natural.placeUnit isUnit aligned (Nat.lt_of_not_le covered)
    apply natural.tracks
    · omega
    · omega
    · exact alignment
    · intro _
      exact ⟨position.offset, unit, stop_eq, isUnit, aligned, by omega,
        alignment ▸ Nat.le_max_right _ _⟩

/-- A storage unit behind the elements takes none of them away. -/
theorem placeUnit_of_stop_le {unit : Nat} (le : stop runs ≤ offset) :
    runs.placeUnit offset unit = runs.place offset ⟨unit, unit⟩ (.integer false unit) := by
  have kept : runs.dropWhile (offset < ·.stop) = runs := by
    cases runs with
    | nil => rfl
    | cons run runs =>
      have le : run.stop ≤ offset := le
      exact List.dropWhile_cons_of_neg (by simpa using le)
  by_cases covered : offset + unit ≤ stop runs
  · rw [placeUnit, if_pos covered, place]
    exact (if_pos covered).symm
  · rw [placeUnit, if_neg covered, kept]
    dsimp only
    rw [if_neg (Nat.lt_irrefl _)]

/-- A storage unit that no bits before it share is covered as an ordinary member is. -/
theorem Tracks.placeWholeUnit {unit : Nat} (tracks : runs.Tracks bit) (isUnit : unit = 4 ∨ unit = 8)
    (aligned : unit ∣ offset) (after : bit ≤ 8 * offset) :
    (runs.placeUnit offset unit).Tracks (8 * (offset + unit)) ∧
      (runs.placeUnit offset unit).layout = runs.layout.span offset ⟨unit, unit⟩ := by
  have sound := isSound_unit isUnit
  have placed := tracks.place sound (by rcases isUnit with rfl | rfl <;> decide) aligned after
  suffices same : runs.placeUnit offset unit =
      runs.place offset (Element.integer false unit).layout (.integer false unit) by
    rw [same]
    exact placed
  by_cases behind : stop runs ≤ offset
  · exact placeUnit_of_stop_le behind
  -- Inside another unit it is the second half of eight bytes, and these cover it.
  · obtain ⟨start, other, ends, _⟩ :=
      tracks.shared sound.alignment aligned after (Nat.lt_of_not_le behind)
    have starts := ends.after
    have stop_eq := ends.stop_eq
    have isOther := ends.isUnit
    have otherAligned := ends.aligned
    have covered : offset + unit ≤ stop runs := by
      rcases isUnit with rfl | rfl <;> rcases isOther with rfl | rfl <;> omega
    rw [Runs.placeUnit, if_pos covered, Runs.place]
    exact (if_pos covered).symm

/-- Elements that reach the cursor, and are aligned as it is, have the layout that the type model finds:
the end of a storage unit is rounded up to the same multiple as the bits inside are. -/
theorem Tracks.layout_eq {cursor : Cursor} {layout : Layout} (tracks : runs.Tracks cursor.freeBit)
    (valid : cursor.IsValid) (alignment_eq : runs.layout.alignment = cursor.alignment)
    (covers : cursor.freeBit ≤ 8 * stop runs) (known : cursor.layout? = some layout) :
    Element.closeLayout runs.layout = layout := by
  obtain ⟨size, rounded, rfl⟩ := Option.map_eq_some_iff.mp known
  obtain ⟨byteEnd, ends, fits⟩ := Option.bind_eq_some_iff.mp rounded
  obtain ⟨_, byteEnd_eq⟩ := fits?_eq_some_iff.mp ends
  obtain ⟨_, rfl⟩ := fits?_eq_some_iff.mp fits
  rw [Element.closeLayout, tracks.natural.size_eq, alignment_eq]
  suffices same : roundUp (stop runs) cursor.alignment = roundUp byteEnd cursor.alignment by rw [same]
  have positive := valid.alignment.pos
  have small := valid.bits_lt
  unfold Cursor.freeBit at covers
  have before : byteEnd ≤ stop runs := by
    split at byteEnd_eq <;> omega
  apply Nat.le_antisymm
  · apply roundUp_le positive (dvd_roundUp _ _)
    rcases Nat.eq_or_lt_of_le before with same | beyond
    · exact same ▸ le_roundUp _ positive
    · have reached : cursor.freeBit < 8 * stop runs := by
        unfold Cursor.freeBit
        split at byteEnd_eq <;> omega
      obtain ⟨offset, unit, inUnit⟩ := tracks.reaches reached
      have after := inUnit.after
      unfold Cursor.freeBit at after
      have inside : offset < byteEnd := by
        split at byteEnd_eq <;> omega
      have unitAlignment : IsAlignment unit := by
        rcases inUnit.isUnit with rfl | rfl <;> decide
      have divides := unitAlignment.dvd_of_le valid.alignment (alignment_eq ▸ inUnit.alignment_le)
      rw [inUnit.stop_eq]
      exact add_le_of_dvd_of_lt inUnit.aligned (Nat.dvd_trans divides (dvd_roundUp _ _))
        (Nat.lt_of_lt_of_le inside (le_roundUp _ positive))
  · exact roundUp_mono positive before

end Runs

end ForeignCall
