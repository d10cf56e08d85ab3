import Mathlib.Order.Bounds.Defs
import ForeignCall.Proofs.Layout.Soundness

/-! # Earliest positions

The rule by which C places the members of a structure, on a single bit position. A member starts at
the first bit that is free and that its type allows: an ordinary member at a multiple of its
alignment, a bitfield where all its bits lie in one storage unit, a bitfield of no width at a multiple
of 32 bits (`BitRule.isLeast_start`). Placement keeps whole bytes and left-over bits apart instead and
stops where a number does not fit an address. As long as the size fits, the two agree in every
position, in the size and in the alignment (`placement_follows_bitRule`): one step follows the rule
(`Cursor.place_eq_rule`), hence a run does (`Cursor.placeAll_eq_rule`).
-/

namespace ForeignCall

/-! ## The rule -/

namespace BitRule

/-- Where a bitfield starts, given the first free bit: there, if its first and its last bit lie in the
same storage unit, and otherwise in the next one. -/
def bitfieldStart (free width : Nat) : Nat :=
  if width = 0 then roundUp free 32
  else
    let unit := 8 * (CType.bitfield width).size
    if free / unit = (free + width - 1) / unit then free else roundUp free unit

/-- Where a member starts, given the first free bit. -/
def start (free : Nat) : CType → Nat
  | .bitfield width => bitfieldStart free width
  | type => roundUp free (8 * type.alignment)

/-- The bits that a member takes. -/
def extent : CType → Nat
  | .bitfield width => width
  | type => 8 * type.size

/-- The first free bit after a member. -/
def advance (free : Nat) (type : CType) : Nat := start free type + extent type

/-- How a start is reported: by its byte, and for a bitfield by the address of its storage unit and the
position inside it. -/
def report (start : Nat) : CType → Position
  | .bitfield width =>
    let unit := (CType.bitfield width).size
    ⟨start / (8 * unit) * unit, some (start % (8 * unit))⟩
  | _ => ⟨start / 8, none⟩

def positions (free : Nat) : List CType → List Position
  | [] => []
  | type :: types => report (start free type) type :: positions (advance free type) types

/-- The first free bit after all members. -/
def stop (types : List CType) : Nat := types.foldl advance 0

/-- Bitfields of no width and an array of no elements in last position do not count for the
alignment. -/
def counts (isLast : Bool) : CType → Bool
  | .bitfield width => 0 < width
  | .array 0 _ => !isLast
  | _ => true

/-- The largest alignment of the members that count. -/
def alignment : List CType → Nat
  | [] => 1
  | type :: types =>
    if counts types.isEmpty type then max type.alignment (alignment types) else alignment types

/-- All bits in whole bytes, rounded up to the alignment. -/
def size (types : List CType) : Nat := roundUp ((stop types + 7) / 8) (alignment types)

/-- Whether a member may start at a bit. The bits of a bitfield all lie in one of the units that follow
one another from the start of the structure. -/
def Allows (bit : Nat) : CType → Prop
  | .bitfield 0 => 32 ∣ bit
  | .bitfield width =>
    let unit := 8 * (CType.bitfield width).size
    ∃ index, unit * index ≤ bit ∧ bit + width ≤ unit * (index + 1)
  | type => 8 * type.alignment ∣ bit

end BitRule

namespace CType

variable {type : CType}

/-- A bitfield of known layout has 32 or 64 bits at most, and a storage unit of as many. -/
theorem bitfield_cases {width : Nat} (sized : (bitfield width).isSized = true) :
    ∃ unit, storageUnit? width = some unit ∧ (bitfield width).size = unit ∧
      (bitfield width).alignment = unit ∧ (unit = 4 ∧ width ≤ 32 ∨ unit = 8 ∧ width ≤ 64) := by
  obtain ⟨layout, known⟩ := Option.isSome_iff_exists.mp sized
  have layout_eq := known
  rw [layout?] at layout_eq
  obtain ⟨unit, storage, rfl⟩ := Option.map_eq_some_iff.mp layout_eq
  have bounds : unit = 4 ∧ width ≤ 32 ∨ unit = 8 ∧ width ≤ 64 := by
    unfold storageUnit? at storage
    split at storage
    next small => cases storage; exact .inl ⟨rfl, small⟩
    next =>
      split at storage
      next small => cases storage; exact .inr ⟨rfl, small⟩
      next => contradiction
  exact ⟨unit, storage, by simp [size, known], by simp [alignment, known], bounds⟩

/-- What placement sees of a type of known layout. -/
theorem footprint_cases_of_isSized (sized : type.isSized = true) :
    (∃ width, type = .bitfield width ∧ type.footprint = .bits width) ∨
    (type.isBitfield = false ∧ IsAlignment type.alignment ∧
      ((∃ element, type = .array 0 element) ∧ type.size = 0 ∧
          type.footprint = .emptyArray type.alignment ∨
        (∀ isLast, BitRule.counts isLast type = true) ∧
          type.footprint = .bytes ⟨type.size, type.alignment⟩)) := by
  obtain ⟨layout, known⟩ := Option.isSome_iff_exists.mp sized
  have sound := isSound_of_layout? type known
  have alignment_eq : type.alignment = layout.alignment := by simp [alignment, known]
  have size_eq : type.size = layout.size := by simp [size, known]
  by_cases isBits : type.isBitfield = true
  · cases type with
    | bitfield width => exact .inl ⟨width, rfl, rfl⟩
    | _ => contradiction
  refine .inr ⟨by simpa using isBits, alignment_eq ▸ sound.alignment, ?_⟩
  rw [alignment_eq, size_eq]
  by_cases isEmpty : ∃ element, type = .array 0 element
  · obtain ⟨element, rfl⟩ := isEmpty
    refine .inl ⟨⟨element, rfl⟩, size_emptyArray known, ?_⟩
    rw [footprint, known]
    rfl
  · refine .inr ⟨fun isLast => ?_, ?_⟩
    · unfold BitRule.counts
      split
      next => contradiction
      next element => exact absurd ⟨element, rfl⟩ isEmpty
      next => rfl
    · rw [footprint, known]
      unfold Footprint.ofType
      split
      next => contradiction
      next same => cases same
      next same _ => exact absurd ⟨_, rfl⟩ isEmpty
      next same => cases same; rfl

end CType

namespace BitRule

variable {type : CType} {free : Nat}

theorem start_of_not_isBitfield (free : Nat) (ordinary : type.isBitfield = false) :
    start free type = roundUp free (8 * type.alignment) := by
  cases type <;> first | rfl | contradiction

theorem extent_of_not_isBitfield (ordinary : type.isBitfield = false) :
    extent type = 8 * type.size := by
  cases type <;> first | rfl | contradiction

theorem report_of_not_isBitfield (ordinary : type.isBitfield = false) (bit : Nat) :
    report bit type = ⟨bit / 8, none⟩ := by
  cases type <;> first | rfl | contradiction

theorem allows_of_not_isBitfield (ordinary : type.isBitfield = false) (bit : Nat) :
    Allows bit type ↔ 8 * type.alignment ∣ bit := by
  cases type <;> first | rfl | contradiction

/-- Rounding up gives the least multiple. -/
theorem isLeast_roundUp {step : Nat} (positive : 0 < step) :
    IsLeast {bit | free ≤ bit ∧ step ∣ bit} (roundUp free step) :=
  ⟨⟨le_roundUp free positive, dvd_roundUp free step⟩,
    fun _ allowed => roundUp_le positive allowed.2 allowed.1⟩

/-- A bitfield starts at the first bit from which it lies in one storage unit. -/
theorem isLeast_bitfieldStart {width : Nat} (sized : (CType.bitfield width).isSized = true) :
    IsLeast {bit | free ≤ bit ∧ Allows bit (.bitfield width)} (bitfieldStart free width) := by
  obtain ⟨unit, _, size_eq, _, bounds⟩ := CType.bitfield_cases sized
  cases width with
  | zero => exact isLeast_roundUp (by decide)
  | succ width =>
    simp only [bitfieldStart, Nat.add_one_ne_zero, if_false, Allows, size_eq]
    constructor
    · split
      next same =>
        refine ⟨Nat.le_refl _, free / (8 * unit), ?_⟩
        rcases bounds with ⟨rfl, _⟩ | ⟨rfl, _⟩ <;> omega
      next =>
        have positive : 0 < 8 * unit := by omega
        obtain ⟨index, multiple⟩ := dvd_roundUp free (8 * unit)
        refine ⟨le_roundUp free positive, index, Nat.le_of_eq multiple.symm, ?_⟩
        rw [Nat.mul_succ, multiple]
        omega
    · rintro bit ⟨after, index, low, high⟩
      split
      next => exact after
      next crosses =>
        rcases bounds with ⟨rfl, _⟩ | ⟨rfl, _⟩ <;> simp only [roundUp] at * <;> omega

/-- Every member starts at the first free bit that the rule allows. -/
theorem isLeast_start (sized : type.isSized = true) :
    IsLeast {bit | free ≤ bit ∧ Allows bit type} (start free type) := by
  rcases CType.footprint_cases_of_isSized sized with ⟨width, rfl, _⟩ | ⟨ordinary, sound, _⟩
  · exact isLeast_bitfieldStart sized
  · simp only [start_of_not_isBitfield free ordinary, allows_of_not_isBitfield ordinary]
    exact isLeast_roundUp (Nat.mul_pos (by decide) sound.pos)

theorem le_start (sized : type.isSized = true) : free ≤ start free type :=
  (isLeast_start sized).1.1

theorem le_foldl_advance {types : List CType} (sized : ∀ type ∈ types, type.isSized = true) :
    free ≤ types.foldl advance free := by
  induction types generalizing free with
  | nil => exact Nat.le_refl _
  | cons type types ih =>
    have step : free ≤ advance free type :=
      Nat.le_trans (le_start (sized _ (List.mem_cons_self ..))) (Nat.le_add_right _ _)
    exact Nat.le_trans step (ih fun other present => sized other (List.mem_cons_of_mem _ present))

/-- A report gives the bit back that it was made of. -/
theorem firstBit_report (sized : type.isSized = true) :
    (report (start free type) type).firstBit = start free type := by
  rcases CType.footprint_cases_of_isSized sized with ⟨width, rfl, _⟩ | ⟨ordinary, _⟩
  · obtain ⟨unit, _, size_eq, _, bounds⟩ := CType.bitfield_cases sized
    simp only [report, size_eq, Position.firstBit, Option.getD_some]
    rcases bounds with ⟨rfl, _⟩ | ⟨rfl, _⟩ <;> omega
  · have multiple : 8 ∣ start free type := by
      rw [start_of_not_isBitfield free ordinary]
      exact Nat.dvd_trans (Nat.dvd_mul_right 8 _) (dvd_roundUp free _)
    simp only [report_of_not_isBitfield ordinary, Position.firstBit, Option.getD_none]
    omega

theorem one_le_alignment (types : List CType) : 1 ≤ alignment types := by
  induction types with
  | nil => exact Nat.le_refl 1
  | cons type types ih =>
    rw [alignment]
    split
    · exact Nat.le_trans ih (Nat.le_max_right _ _)
    · exact ih

theorem getElem?_positions {types : List CType} {index : Nat} (present : types[index]? = some type) :
    (positions free types)[index]? =
      some (report (start ((types.take index).foldl advance free) type) type) := by
  induction types generalizing free index with
  | nil => contradiction
  | cons first types ih =>
    cases index with
    | zero =>
      cases present
      rfl
    | succ index => exact ih present

end BitRule

/-! ## Placement follows the rule -/

namespace Cursor

variable {cursor next final : Cursor} {type : CType}

/-- Rounding up bits in steps of whole bytes is rounding up the bytes that they begin. -/
theorem roundUp_bits (amount : Nat) {step : Nat} (positive : 0 < step) :
    roundUp amount (8 * step) = 8 * roundUp ((amount + 7) / 8) step := by
  have positive' : 0 < 8 * step := Nat.mul_pos (by decide) positive
  apply Nat.le_antisymm
  · have bytes := le_roundUp ((amount + 7) / 8) positive
    exact roundUp_le positive' (Nat.mul_dvd_mul_left 8 (dvd_roundUp _ step)) (by omega)
  · obtain ⟨count, multiple⟩ := dvd_roundUp amount (8 * step)
    have bits := le_roundUp amount positive'
    rw [multiple, Nat.mul_assoc] at bits ⊢
    exact Nat.mul_le_mul_left 8 (roundUp_le positive (Nat.dvd_mul_right step count) (by omega))

/-- The next multiple of some bytes is that of as many bits. -/
theorem nextMultiple?_eq {step : Nat} (valid : cursor.IsValid) (positive : 0 < step)
    (fits : roundUp cursor.freeBit (8 * step) ≤ 8 * maxAddress) :
    cursor.nextMultiple? step = some (roundUp cursor.freeBit (8 * step) / 8) := by
  have small := valid.bits_lt
  have byteEnd : (cursor.bytes + if cursor.bits = 0 then 0 else 1) = (cursor.freeBit + 7) / 8 := by
    unfold freeBit
    split <;> omega
  rw [roundUp_bits cursor.freeBit positive] at fits ⊢
  have within := le_roundUp ((cursor.freeBit + 7) / 8) positive
  have limit : maxAddress < addressLimit := by decide
  rw [nextMultiple?, byteEnd?, byteEnd, fits?, if_pos (by omega), Option.bind_some, fits?,
    if_pos (by omega), Nat.mul_div_cancel_left _ (by decide)]

/-- Bits that end at an address are taken. -/
theorem takeBits?_eq {offset used width : Nat} (fits : 8 * offset + used + width ≤ 8 * maxAddress) :
    cursor.takeBits? offset used width =
      some (⟨offset, some used⟩, ⟨offset + (used + width) / 8, (used + width) % 8, cursor.alignment⟩) := by
  have limit : maxAddress < addressLimit := by decide
  rw [takeBits?, fits?, if_pos (by omega), Option.map_some]

/-- Bits are taken from the unit of the cursor exactly if the rule leaves them there. -/
theorem placeBits?_eq {width unit : Nat} (valid : cursor.IsValid) (positive : 0 < width)
    (size_eq : (CType.bitfield width).size = unit) (bounds : unit = 4 ∧ width ≤ 32 ∨ unit = 8 ∧ width ≤ 64)
    (fits : BitRule.advance cursor.freeBit (.bitfield width) ≤ 8 * maxAddress) :
    ∃ next, cursor.placeBits? width unit =
        some (BitRule.report (BitRule.start cursor.freeBit (.bitfield width)) (.bitfield width), next) ∧
      next.freeBit = BitRule.advance cursor.freeBit (.bitfield width) ∧ next.bits < 8 := by
  have small := valid.bits_lt
  have nonzero : width ≠ 0 := Nat.ne_of_gt positive
  have limit : maxAddress < addressLimit := by decide
  simp only [BitRule.advance, BitRule.start, BitRule.bitfieldStart, BitRule.extent, BitRule.report,
    size_eq, if_neg nonzero] at fits ⊢
  unfold freeBit at fits ⊢
  unfold placeBits?
  by_cases stays : cursor.bytes % unit * 8 + cursor.bits + width ≤ unit * 8
  · have same : (8 * cursor.bytes + cursor.bits) / (8 * unit) =
        (8 * cursor.bytes + cursor.bits + width - 1) / (8 * unit) := by
      rcases bounds with ⟨rfl, _⟩ | ⟨rfl, _⟩ <;> omega
    rw [if_pos same] at fits ⊢
    have offset : (8 * cursor.bytes + cursor.bits) / (8 * unit) * unit =
        cursor.bytes - cursor.bytes % unit := by
      rcases bounds with ⟨rfl, _⟩ | ⟨rfl, _⟩ <;> omega
    have used : (8 * cursor.bytes + cursor.bits) % (8 * unit) =
        cursor.bytes % unit * 8 + cursor.bits := by
      rcases bounds with ⟨rfl, _⟩ | ⟨rfl, _⟩ <;> omega
    have below := Nat.mod_le cursor.bytes unit
    rw [offset, used]
    dsimp only
    rw [if_pos stays, takeBits?_eq (by omega)]
    exact ⟨_, rfl, by dsimp only; omega, Nat.mod_lt _ (by decide)⟩
  · have crosses : ¬(8 * cursor.bytes + cursor.bits) / (8 * unit) =
        (8 * cursor.bytes + cursor.bits + width - 1) / (8 * unit) := by
      rcases bounds with ⟨rfl, _⟩ | ⟨rfl, _⟩ <;> omega
    rw [if_neg crosses] at fits ⊢
    have next : roundUp (8 * cursor.bytes + cursor.bits) (8 * unit) =
        8 * (cursor.bytes - cursor.bytes % unit + unit) := by
      rcases bounds with ⟨rfl, _⟩ | ⟨rfl, _⟩ <;> simp only [roundUp] <;> omega
    have offset : 8 * (cursor.bytes - cursor.bytes % unit + unit) / (8 * unit) * unit =
        cursor.bytes - cursor.bytes % unit + unit := by
      rcases bounds with ⟨rfl, _⟩ | ⟨rfl, _⟩ <;> omega
    have used : 8 * (cursor.bytes - cursor.bytes % unit + unit) % (8 * unit) = 0 := by
      rcases bounds with ⟨rfl, _⟩ | ⟨rfl, _⟩ <;> omega
    rw [next] at fits ⊢
    rw [offset, used]
    dsimp only
    rw [if_neg stays, fits?, if_pos (by omega), Option.bind_some, takeBits?_eq (by omega)]
    exact ⟨_, rfl, by dsimp only; omega, Nat.mod_lt _ (by decide)⟩

/-- A bitfield is placed where the rule puts it. -/
private theorem place_bits_eq (isLast : Bool) {width : Nat} (valid : cursor.IsValid)
    (sized : (CType.bitfield width).isSized = true)
    (fits : BitRule.advance cursor.freeBit (.bitfield width) ≤ 8 * maxAddress) :
    ∃ next, cursor.place isLast (.bits width) =
        (some (BitRule.report (BitRule.start cursor.freeBit (.bitfield width)) (.bitfield width)),
          some next) ∧
      next.freeBit = BitRule.advance cursor.freeBit (.bitfield width) ∧
      next.alignment = if BitRule.counts isLast (.bitfield width) then
        max cursor.alignment (CType.bitfield width).alignment else cursor.alignment := by
  obtain ⟨unit, storage, size_eq, alignment_eq, bounds⟩ := CType.bitfield_cases sized
  cases width with
  | zero =>
    cases storage
    have start_eq : BitRule.start cursor.freeBit (.bitfield 0) = roundUp cursor.freeBit (8 * 4) := rfl
    have multiple := dvd_roundUp cursor.freeBit (8 * 4)
    simp only [BitRule.advance, BitRule.extent, start_eq, Nat.add_zero] at fits ⊢
    generalize reached : roundUp cursor.freeBit (8 * 4) = start at *
    have position : BitRule.report start (.bitfield 0) = ⟨start / 8, some 0⟩ := by
      simp only [BitRule.report, size_eq, Position.mk.injEq, Option.some.injEq]
      omega
    simp only [place, nextMultiple?_eq valid (by decide : 0 < 4) (reached ▸ fits), reached, position]
    refine ⟨_, rfl, ?_, rfl⟩
    simp only [freeBit]
    omega
  | succ width =>
    obtain ⟨next, placed, freeBit_eq, _⟩ :=
      placeBits?_eq valid (Nat.zero_lt_succ width) size_eq bounds fits
    simp only [place, storage, placed, Option.bind_some, Option.map_some]
    exact ⟨_, rfl, freeBit_eq, by simp [BitRule.counts, alignment_eq]⟩

/-- One step places its member where the rule does. -/
theorem place_eq_rule (isLast : Bool) (valid : cursor.IsValid) (sized : type.isSized = true)
    (fits : BitRule.advance cursor.freeBit type ≤ 8 * maxAddress) :
    ∃ next, cursor.place isLast type.footprint =
        (some (BitRule.report (BitRule.start cursor.freeBit type) type), some next) ∧
      next.freeBit = BitRule.advance cursor.freeBit type ∧
      next.alignment =
        if BitRule.counts isLast type then max cursor.alignment type.alignment else cursor.alignment := by
  rcases CType.footprint_cases_of_isSized sized with ⟨width, rfl, footprint⟩ |
    ⟨ordinary, sound, kind⟩
  · rw [footprint]
    exact place_bits_eq isLast valid sized fits
  have start_eq := BitRule.start_of_not_isBitfield cursor.freeBit ordinary
  have multiple : 8 ∣ roundUp cursor.freeBit (8 * type.alignment) :=
    Nat.dvd_trans (Nat.dvd_mul_right 8 _) (dvd_roundUp cursor.freeBit _)
  simp only [BitRule.advance, BitRule.extent_of_not_isBitfield ordinary,
    BitRule.report_of_not_isBitfield ordinary, start_eq] at fits ⊢
  have found := nextMultiple?_eq valid sound.pos (by omega)
  generalize roundUp cursor.freeBit (8 * type.alignment) = start at *
  rcases kind with ⟨⟨element, rfl⟩, empty, footprint⟩ | ⟨counts, footprint⟩
  · simp only [footprint, place, found]
    refine ⟨_, rfl, ?_, ?_⟩
    · simp only [freeBit, empty]
      omega
    · cases isLast <;> rfl
  · have limit : maxAddress < addressLimit := by decide
    simp only [footprint, place, found]
    rw [fits?, if_pos (by omega), counts]
    refine ⟨_, rfl, ?_, rfl⟩
    simp only [freeBit]
    omega

/-- A run places its members where the rule does. -/
theorem placeAll_eq_rule {members : List Member} (valid : cursor.IsValid)
    (sized : ∀ member ∈ members, member.type.isSized = true)
    (fits : (members.map (·.type)).foldl BitRule.advance cursor.freeBit ≤ 8 * maxAddress) :
    ∃ final, placeAll (some cursor) (CType.footprints members) =
        ((BitRule.positions cursor.freeBit (members.map (·.type))).map some, some final) ∧
      final.freeBit = (members.map (·.type)).foldl BitRule.advance cursor.freeBit ∧
      final.IsValid ∧
      final.alignment = max cursor.alignment (BitRule.alignment (members.map (·.type))) := by
  induction members generalizing cursor with
  | nil =>
    refine ⟨cursor, rfl, rfl, valid, (Nat.max_eq_left ?_).symm⟩
    exact valid.alignment.pos
  | cons member members ih =>
    obtain ⟨first, others⟩ := List.forall_mem_cons.mp sized
    have othersSized : ∀ type ∈ members.map (·.type), type.isSized = true := by
      simpa using others
    have reached : BitRule.advance cursor.freeBit member.type ≤ 8 * maxAddress :=
      Nat.le_trans (BitRule.le_foldl_advance othersSized) fits
    obtain ⟨next, step, freeBit_eq, alignment_eq⟩ :=
      place_eq_rule (CType.footprints members).isEmpty valid first reached
    obtain ⟨_, _, places⟩ := place_spec valid (CType.isSound_footprint _) step
    rw [List.map_cons, List.foldl_cons, ← freeBit_eq] at fits ⊢
    obtain ⟨final, run, freeBit_eq', valid', alignment_eq'⟩ := ih places.valid others fits
    refine ⟨final, ?_, freeBit_eq', valid', ?_⟩
    · rw [CType.footprints_eq_map] at step run ⊢
      rw [List.map_cons, placeAll, step]
      simp only [run, BitRule.positions, List.map_cons, freeBit_eq]
    · have isLast : (CType.footprints members).isEmpty = (members.map (·.type)).isEmpty := by
        simp [CType.footprints_eq_map]
      rw [alignment_eq', alignment_eq, isLast, BitRule.alignment]
      split <;> simp [Nat.max_assoc]

/-- The size of a structure is that of all bits in whole bytes, rounded up. -/
theorem layout?_eq (valid : cursor.IsValid)
    (fits : roundUp ((cursor.freeBit + 7) / 8) cursor.alignment ≤ maxAddress) :
    cursor.layout? = some ⟨roundUp ((cursor.freeBit + 7) / 8) cursor.alignment, cursor.alignment⟩ := by
  have positive := valid.alignment.pos
  have bits := roundUp_bits cursor.freeBit positive
  rw [layout?, nextMultiple?_eq valid positive (by omega), bits, Nat.mul_div_cancel_left _ (by decide)]
  rfl

end Cursor

/-- A structure of sized members is placed as the bit-cursor rule says, if the size that the rule gives
fits an address. So every member starts at the first bit after the members before it that its type
allows. -/
theorem placement_follows_bitRule {members : List Member}
    (sized : ∀ member ∈ members, member.type.isSized = true)
    (fits : BitRule.size (members.map (·.type)) < addressLimit) :
    let types := members.map (·.type)
    let placement := Placement.ofStruct (CType.footprints members)
    placement = ⟨(BitRule.positions 0 types).map some,
      some ⟨BitRule.size types, BitRule.alignment types⟩⟩ ∧
    ∀ index type, types[index]? = some type →
      ∃ position, placement.positions[index]? = some (some position) ∧
        IsLeast {bit | BitRule.stop (types.take index) ≤ bit ∧ BitRule.Allows bit type}
          position.firstBit := by
  intro types placement
  have inside : BitRule.size types ≤ maxAddress := Nat.le_sub_one_of_lt fits
  have reached : types.foldl BitRule.advance 0 ≤ 8 * maxAddress := by
    have enclosed := le_roundUp ((BitRule.stop types + 7) / 8) (BitRule.one_le_alignment types)
    rw [BitRule.size] at inside
    rw [BitRule.stop] at inside enclosed
    omega
  obtain ⟨final, run, freeBit_eq, valid, alignment_eq⟩ :=
    Cursor.placeAll_eq_rule Cursor.isValid_start sized reached
  have alignment : final.alignment = BitRule.alignment types :=
    alignment_eq.trans (Nat.max_eq_right (BitRule.one_le_alignment types))
  have size : roundUp ((final.freeBit + 7) / 8) final.alignment = BitRule.size types := by
    rw [freeBit_eq, alignment]
    rfl
  have layout := Cursor.layout?_eq valid (size ▸ inside)
  rw [size, alignment] at layout
  have follows : placement = ⟨(BitRule.positions 0 types).map some,
      some ⟨BitRule.size types, BitRule.alignment types⟩⟩ := by
    rw [← layout]
    simp only [placement, Placement.ofStruct, run]
    rfl
  refine ⟨follows, fun index type present => ?_⟩
  have isSized : type.isSized = true := by
    obtain ⟨member, isMember, rfl⟩ := List.mem_map.mp (List.mem_of_getElem? present)
    exact sized member isMember
  refine ⟨BitRule.report (BitRule.start (BitRule.stop (types.take index)) type) type, ?_, ?_⟩
  · rw [follows, List.getElem?_map, BitRule.getElem?_positions present]
    rfl
  · rw [BitRule.firstBit_report isSized]
    exact BitRule.isLeast_start isSized

/-- A short member after bitfields of both units begins at the first multiple of 16 bits after them,
and with it the structure has the positions that the rule gives. -/
theorem placement_follows_bitRule_mixed :
    (∀ member ∈ mixedMembers, member.type.isSized = true) ∧
      BitRule.size (mixedMembers.map (·.type)) < addressLimit ∧
      Placement.ofStruct (CType.footprints mixedMembers) =
        ⟨[some ⟨0, none⟩, some ⟨0, some 8⟩, some ⟨8, some 0⟩, some ⟨14, none⟩, some ⟨16, some 0⟩,
          some ⟨16, some 0⟩, some ⟨24, none⟩], some ⟨24, 8⟩⟩ ∧
      IsLeast {bit | 104 ≤ bit ∧ BitRule.Allows bit (.scalar .short)} 112 := by
  have sized : ∀ member ∈ mixedMembers, member.type.isSized = true := by decide
  have fits : BitRule.size (mixedMembers.map (·.type)) < addressLimit := by decide
  obtain ⟨placement, earliest⟩ := placement_follows_bitRule sized fits
  obtain ⟨position, found, least⟩ := earliest 3 (.scalar .short) rfl
  have position_eq : position = ⟨14, none⟩ := by
    rw [placement] at found
    exact (Option.some.inj (Option.some.inj found)).symm
  subst position_eq
  exact ⟨sized, fits, placement, least⟩

end ForeignCall
