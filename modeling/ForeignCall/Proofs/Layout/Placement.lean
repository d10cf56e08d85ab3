import ForeignCall.Proofs.Layout.Alignment

/-! # Placement

What one step of placement ensures, and what a run keeps. A `Cursor` separates the bits that members
have from those that are free: a member placed from a cursor starts at its first free bit or later
and ends at the first free bit of the next cursor or earlier (`Cursor.place_spec`). A later cursor
only adds to that, so a member stays `SettledAt` the end of the whole run.
-/

namespace ForeignCall

/-- The bits that a member takes; an empty array takes none. -/
def Footprint.bitCount : Footprint → Nat
  | bits width => width
  | bytes layout => 8 * layout.size
  | emptyArray _ | unsized => 0

/-- The first bit of a member, counted from the start of the aggregate. -/
def Position.firstBit (position : Position) : Nat := 8 * position.offset + position.bit.getD 0

/-- The layout inside a footprint is one that a type can have. -/
def Footprint.IsSound : Footprint → Prop
  | bits _ | unsized => True
  | bytes layout => layout.IsSound
  | emptyArray alignment => IsAlignment alignment

theorem Footprint.IsSound.layout {footprint : Footprint} {layout : Layout}
    (sound : footprint.IsSound) (known : footprint.layout? = some layout) : layout.IsSound := by
  cases footprint with
  | bits width =>
    obtain ⟨unit, storage, rfl⟩ := Option.map_eq_some_iff.mp known
    exact Layout.isSound_storageUnit storage
  | bytes inner => cases known; exact sound
  | emptyArray alignment => cases known; exact ⟨sound, Nat.dvd_zero _⟩
  | unsized => contradiction

theorem Footprint.isSound_ofType {type : CType} {layout : Option Layout}
    (sound : ∀ known, layout = some known → known.IsSound) : (ofType type layout).IsSound := by
  unfold ofType
  split
  · trivial
  · trivial
  · exact (sound _ rfl).alignment
  · exact sound _ rfl

namespace Cursor

variable {cursor next final : Cursor}

/-- The first bit after everything placed so far. -/
def freeBit (cursor : Cursor) : Nat := 8 * cursor.bytes + cursor.bits

/-- Less than a byte of bits is left over, and the alignment is one that types have. -/
structure IsValid (cursor : Cursor) : Prop where
  bits_lt : cursor.bits < 8
  alignment : IsAlignment cursor.alignment

theorem isValid_start : start.IsValid := by
  constructor <;> decide

/-- A later cursor of the same structure. -/
structure Precedes (cursor next : Cursor) : Prop where
  freeBit_le : cursor.freeBit ≤ next.freeBit
  alignment_le : cursor.alignment ≤ next.alignment

theorem Precedes.refl (cursor : Cursor) : cursor.Precedes cursor := ⟨Nat.le_refl _, Nat.le_refl _⟩

theorem Precedes.trans (first : cursor.Precedes next) (second : next.Precedes final) :
    cursor.Precedes final :=
  ⟨Nat.le_trans first.freeBit_le second.freeBit_le,
    Nat.le_trans first.alignment_le second.alignment_le⟩

end Cursor

/-- A member at a position lies before a cursor, aligned as its kind asks for. A bitfield lies in one
storage unit, and unless it is empty the structure is aligned at least as that unit is. -/
def Footprint.SettledAt (position : Position) (cursor : Cursor) : Footprint → Prop
  | bits width =>
    ∃ start, position.bit = some start ∧ 8 * position.offset + start + width ≤ cursor.freeBit ∧
      ∃ unit, storageUnit? width = some unit ∧ unit ∣ position.offset ∧ start + width ≤ 8 * unit ∧
        (0 < width → unit ≤ cursor.alignment)
  | bytes layout =>
    position.bit = none ∧ layout.alignment ∣ position.offset ∧
      8 * (position.offset + layout.size) ≤ cursor.freeBit
  | emptyArray alignment =>
    position.bit = none ∧ alignment ∣ position.offset ∧ 8 * position.offset ≤ cursor.freeBit
  | unsized => False

namespace Footprint

variable {footprint : Footprint} {position : Position} {cursor next : Cursor}

theorem SettledAt.end_le (settled : footprint.SettledAt position cursor) :
    position.firstBit + footprint.bitCount ≤ cursor.freeBit := by
  cases footprint with
  | bits width =>
    obtain ⟨start, bit, ends, _⟩ := settled
    simpa only [Position.firstBit, bit, bitCount, Option.getD_some] using ends
  | bytes layout =>
    obtain ⟨bit, _, ends⟩ := settled
    simp only [Position.firstBit, bit, bitCount, Option.getD_none]
    omega
  | emptyArray alignment =>
    obtain ⟨bit, _, ends⟩ := settled
    simpa only [Position.firstBit, bit, bitCount, Option.getD_none, Nat.add_zero] using ends
  | unsized => exact settled.elim

theorem SettledAt.mono (settled : footprint.SettledAt position cursor)
    (later : cursor.Precedes next) : footprint.SettledAt position next := by
  have further := later.freeBit_le
  cases footprint with
  | bits width =>
    obtain ⟨start, bit, ends, inUnit⟩ := settled
    obtain ⟨unit, storage, aligned, inside, le⟩ := inUnit
    exact ⟨start, bit, Nat.le_trans ends further, unit, storage, aligned, inside,
      fun positive => Nat.le_trans (le positive) later.alignment_le⟩
  | bytes layout => exact ⟨settled.1, settled.2.1, Nat.le_trans settled.2.2 further⟩
  | emptyArray alignment => exact ⟨settled.1, settled.2.1, Nat.le_trans settled.2.2 further⟩
  | unsized => exact settled.elim

end Footprint

namespace Cursor

variable {cursor next final : Cursor} {position : Position} {footprint : Footprint}

theorem nextMultiple?_spec {step start : Nat} (valid : cursor.IsValid) (positive : 0 < step)
    (found : cursor.nextMultiple? step = some start) :
    step ∣ start ∧ cursor.freeBit ≤ 8 * start := by
  obtain ⟨stop, ends, fits⟩ := Option.bind_eq_some_iff.mp found
  obtain ⟨_, rfl⟩ := fits?_eq_some_iff.mp ends
  obtain ⟨_, rfl⟩ := fits?_eq_some_iff.mp fits
  constructor
  · apply dvd_roundUp
  · have above := le_roundUp (cursor.bytes + if cursor.bits = 0 then 0 else 1) positive
    have small := valid.bits_lt
    unfold freeBit
    by_cases whole : cursor.bits = 0
    · simp only [whole, ↓reduceIte] at above ⊢
      omega
    · simp only [whole, ↓reduceIte] at above ⊢
      omega

/-- Taken bits are whole bytes and a rest below eight. -/
theorem takeBits?_spec {offset used width : Nat} (valid : cursor.IsValid)
    (taken : cursor.takeBits? offset used width = some (position, next)) :
    position = ⟨offset, some used⟩ ∧ next.IsValid ∧ next.alignment = cursor.alignment ∧
      next.freeBit = 8 * offset + used + width := by
  obtain ⟨bytes, fits, result⟩ := Option.map_eq_some_iff.mp taken
  obtain ⟨_, rfl⟩ := fits?_eq_some_iff.mp fits
  cases result
  refine ⟨rfl, ⟨Nat.mod_lt _ (by decide), valid.alignment⟩, rfl, ?_⟩
  simp only [freeBit]
  omega

/-- A bitfield starts in the unit that holds the cursor, or at the start of the next one. -/
theorem placeBits?_spec {width unit : Nat} (valid : cursor.IsValid) (positive : 0 < unit)
    (fitting : width ≤ 8 * unit)
    (placed : cursor.placeBits? width unit = some (position, next)) :
    ∃ start, position.bit = some start ∧ unit ∣ position.offset ∧ start + width ≤ 8 * unit ∧
      cursor.freeBit ≤ 8 * position.offset + start ∧ next.IsValid ∧
      next.alignment = cursor.alignment ∧ next.freeBit = 8 * position.offset + start + width := by
  have split := Nat.div_add_mod cursor.bytes unit
  have rest := Nat.mod_lt cursor.bytes positive
  have small := valid.bits_lt
  have aligned : unit ∣ cursor.bytes - cursor.bytes % unit := Nat.dvd_sub_mod cursor.bytes
  simp only [placeBits?] at placed
  split at placed
  · obtain ⟨rfl, valid, alignment, freeBit_eq⟩ := takeBits?_spec valid placed
    refine ⟨_, rfl, aligned, by omega, ?_, valid, alignment, freeBit_eq⟩
    simp only [freeBit]
    omega
  · obtain ⟨start, fits, taken⟩ := Option.bind_eq_some_iff.mp placed
    obtain ⟨_, rfl⟩ := fits?_eq_some_iff.mp fits
    obtain ⟨rfl, valid, alignment, freeBit_eq⟩ := takeBits?_spec valid taken
    refine ⟨0, rfl, Nat.dvd_add aligned (Nat.dvd_refl unit), by omega, ?_, valid, alignment,
      freeBit_eq⟩
    simp only [freeBit]
    omega

theorem storageUnit?_spec {width unit : Nat} (known : storageUnit? width = some unit) :
    IsAlignment unit ∧ width ≤ 8 * unit := by
  constructor
  · exact (Layout.isSound_storageUnit known).alignment
  · unfold storageUnit? at known
    split at known
    · cases known
      omega
    · split at known
      · cases known
        omega
      · contradiction

/-- What a step from one cursor to the next ensures of the member it places. -/
structure Places (cursor : Cursor) (footprint : Footprint) (position : Position) (next : Cursor) :
    Prop where
  settled : footprint.SettledAt position next
  freeBit_le : cursor.freeBit ≤ position.firstBit
  precedes : cursor.Precedes next
  valid : next.IsValid

/-- A bitfield of no width moves to a multiple of four bytes and takes nothing. -/
private theorem places_gap {start : Nat} (valid : cursor.IsValid)
    (found : cursor.nextMultiple? 4 = some start) :
    cursor.Places (.bits 0) ⟨start, some 0⟩ { cursor with bytes := start, bits := 0 } := by
  obtain ⟨aligned, after⟩ := nextMultiple?_spec valid (by decide) found
  refine ⟨⟨0, rfl, Nat.le_refl _, 4, rfl, aligned, by decide, fun positive => ?_⟩, after,
    ⟨after, Nat.le_refl _⟩, ⟨Nat.zero_lt_succ 7, valid.alignment⟩⟩
  exact absurd positive (Nat.lt_irrefl 0)

private theorem places_bits {width unit : Nat} (valid : cursor.IsValid)
    (storage : storageUnit? width = some unit)
    (placed : cursor.placeBits? width unit = some (position, next)) :
    cursor.Places (.bits width) position
      { next with alignment := max cursor.alignment unit } := by
  obtain ⟨unitAlignment, fitting⟩ := storageUnit?_spec storage
  obtain ⟨start, bit, aligned, inside, after, ⟨bits_lt, _⟩, _, freeBit_eq⟩ :=
    placeBits?_spec valid unitAlignment.pos fitting placed
  refine ⟨⟨start, bit, Nat.le_of_eq freeBit_eq.symm, unit, storage, aligned, inside,
      fun _ => Nat.le_max_right _ _⟩, ?_, ⟨?_, Nat.le_max_left _ _⟩,
    ⟨bits_lt, valid.alignment.max unitAlignment⟩⟩
  · simpa only [Position.firstBit, bit, Option.getD_some] using after
  · exact Nat.le_trans after (Nat.le_trans (Nat.le_add_right _ _) (Nat.le_of_eq freeBit_eq.symm))

/-- A flexible tail leaves the alignment of the structure as it is. -/
private theorem places_emptyArray {alignment start : Nat} (isLast : Bool) (valid : cursor.IsValid)
    (sound : IsAlignment alignment) (found : cursor.nextMultiple? alignment = some start) :
    cursor.Places (.emptyArray alignment) ⟨start, none⟩
      ⟨start, 0, if isLast then cursor.alignment else max cursor.alignment alignment⟩ := by
  obtain ⟨aligned, after⟩ := nextMultiple?_spec valid sound.pos found
  refine ⟨⟨rfl, aligned, Nat.le_refl _⟩, after, ⟨after, ?_⟩, ⟨Nat.zero_lt_succ 7, ?_⟩⟩
  · cases isLast
    · exact Nat.le_max_left _ _
    · exact Nat.le_refl _
  · cases isLast
    · exact valid.alignment.max sound
    · exact valid.alignment

private theorem places_bytes {layout : Layout} {start : Nat} (valid : cursor.IsValid)
    (sound : layout.IsSound) (found : cursor.nextMultiple? layout.alignment = some start) :
    cursor.Places (.bytes layout) ⟨start, none⟩
      ⟨start + layout.size, 0, max cursor.alignment layout.alignment⟩ := by
  obtain ⟨aligned, after⟩ := nextMultiple?_spec valid sound.alignment.pos found
  refine ⟨⟨rfl, aligned, Nat.le_refl _⟩, after, ⟨?_, Nat.le_max_left _ _⟩,
    ⟨Nat.zero_lt_succ 7, valid.alignment.max sound.alignment⟩⟩
  simp only [freeBit] at after ⊢
  omega

/-- One step places its member after everything before and moves the cursor behind it. -/
theorem place_spec {isLast : Bool} {found : Option Position} (valid : cursor.IsValid)
    (sound : footprint.IsSound) (placed : cursor.place isLast footprint = (found, some next)) :
    ∃ position, found = some position ∧ cursor.Places footprint position next := by
  unfold place at placed
  split at placed
  next => simp at placed
  next =>
    split at placed
    next start atUnit =>
      cases placed
      exact ⟨_, rfl, places_gap valid atUnit⟩
    next => simp at placed
  next width positive =>
    split at placed
    next position bits unit inUnit =>
      obtain ⟨_, storage, result⟩ := Option.bind_eq_some_iff.mp inUnit
      obtain ⟨_, bitsPlaced, same⟩ := Option.map_eq_some_iff.mp result
      cases same
      cases placed
      exact ⟨_, rfl, places_bits valid storage bitsPlaced⟩
    next => simp at placed
  next alignment =>
    split at placed
    next start atMultiple =>
      cases placed
      exact ⟨_, rfl, places_emptyArray isLast valid sound atMultiple⟩
    next => simp at placed
  next layout =>
    split at placed
    next start atMultiple =>
      obtain ⟨rfl, moved⟩ := Prod.mk.inj placed
      obtain ⟨stop, fits, rfl⟩ := Option.map_eq_some_iff.mp moved
      obtain ⟨_, rfl⟩ := fits?_eq_some_iff.mp fits
      exact ⟨_, rfl, places_bytes valid sound atMultiple⟩
    next => simp at placed

theorem alignment_le_of_place_bytes {isLast : Bool} {found : Option Position} {layout : Layout}
    (placed : cursor.place isLast (.bytes layout) = (found, some next)) :
    layout.alignment ≤ next.alignment := by
  simp only [place] at placed
  split at placed
  next start atMultiple =>
    obtain ⟨_, moved⟩ := Prod.mk.inj placed
    obtain ⟨stop, _, rfl⟩ := Option.map_eq_some_iff.mp moved
    exact Nat.le_max_right _ _
  next => simp at placed

/-- Nothing follows an unknown cursor. -/
theorem placeAll_none (members : List Footprint) :
    placeAll none members = (members.map fun _ => none, none) := by
  cases members <;> rfl

/-- A run that ends somewhere has taken its first step, and then runs on from there. -/
theorem placeAll_cons {member : Footprint} {members : List Footprint}
    (ends : (placeAll (some cursor) (member :: members)).2 = some final) :
    ∃ found next, cursor.place members.isEmpty member = (found, some next) ∧
      (placeAll (some cursor) (member :: members)).1 = found :: (placeAll (some next) members).1 ∧
      (placeAll (some next) members).2 = some final := by
  rcases step : cursor.place members.isEmpty member with ⟨found, next | next⟩
  · simp [placeAll, step, placeAll_none] at ends
  · simp only [placeAll, step] at ends
    exact ⟨found, next, rfl, by simp only [placeAll, step], ends⟩

theorem placeAll_isValid {members : List Footprint} (valid : cursor.IsValid)
    (sound : ∀ member ∈ members, member.IsSound)
    (ends : (placeAll (some cursor) members).2 = some final) : final.IsValid := by
  induction members generalizing cursor with
  | nil => cases ends; exact valid
  | cons member members ih =>
    obtain ⟨found, next, step, _, rest⟩ := placeAll_cons ends
    obtain ⟨_, _, places⟩ := place_spec valid (sound member (List.mem_cons_self ..)) step
    exact ih places.valid (fun other present => sound other (List.mem_cons_of_mem _ present)) rest

/-- The size of a structure covers everything placed, and the structure is sound. -/
theorem layout?_spec {layout : Layout} (valid : cursor.IsValid)
    (known : cursor.layout? = some layout) :
    layout.IsSound ∧ layout.alignment = cursor.alignment ∧ cursor.freeBit ≤ 8 * layout.size := by
  obtain ⟨size, rounded, rfl⟩ := Option.map_eq_some_iff.mp known
  obtain ⟨aligned, after⟩ := nextMultiple?_spec valid valid.alignment.pos rounded
  exact ⟨⟨valid.alignment, aligned⟩, rfl, after⟩

end Cursor

end ForeignCall
