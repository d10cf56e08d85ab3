import Mathlib.Data.List.Forall2
import ForeignCall.Proofs.Layout.Soundness

/-! # Exact layouts

The layout rules over all natural numbers: nothing is compared with an address, so a layout is absent
only where the rules give none (`CType.exactLayout?`). One step of placement agrees with the exact
step (`Cursor.place_agrees`), and is the exact step as long as the cursor after it has an address
(`Cursor.place_of_advance`). Exact cursors only move forward, so a structure whose size fits has had a
fitting cursor all along: an aggregate is placed exactly wherever it is placed
(`Placement.ofShape_agrees`), and it has its exact layout if that fits
(`Placement.ofShape_of_exactOfShape`).
-/

namespace ForeignCall

/-! ## The rules -/

namespace Layout

def repeated (element : Layout) (count : Nat) : Layout := ⟨element.size * count, element.alignment⟩

def vector (inner : Layout) : Layout :=
  let size := leastPowerOfTwo (max inner.size 1)
  ⟨size, min size maxVectorAlignment⟩

end Layout

namespace Cursor

/-- The first byte that no member has touched, exactly. -/
def byteEnd (cursor : Cursor) : Nat := cursor.bytes + if cursor.bits = 0 then 0 else 1

/-- The next multiple of `step` bytes at which nothing has been placed, exactly. -/
def nextMultiple (cursor : Cursor) (step : Nat) : Nat := roundUp cursor.byteEnd step

def takeBits (cursor : Cursor) (offset used width : Nat) : Position × Cursor :=
  (⟨offset, some used⟩,
    { cursor with bytes := offset + (used + width) / 8, bits := (used + width) % 8 })

/-- Places a bitfield in the unit that holds the cursor, or in the next one if it would cross the end. -/
def placeBits (cursor : Cursor) (width unit : Nat) : Position × Cursor :=
  let offset := cursor.bytes - cursor.bytes % unit
  let used := cursor.bytes % unit * 8 + cursor.bits
  if used + width ≤ unit * 8 then cursor.takeBits offset used width
  else cursor.takeBits (offset + unit) 0 width

/-- Places one member exactly; only a member without a layout has no place. -/
def advance (cursor : Cursor) (isLast : Bool) : Footprint → Option (Position × Cursor)
  | .unsized => none
  | .bits 0 =>
    let next := cursor.nextMultiple 4
    some (⟨next, some 0⟩, { cursor with bytes := next, bits := 0 })
  | .bits width => (storageUnit? width).map fun unit =>
    let (position, next) := cursor.placeBits width unit
    (position, { next with alignment := max cursor.alignment unit })
  | .emptyArray alignment =>
    let start := cursor.nextMultiple alignment
    some (⟨start, none⟩,
      ⟨start, 0, if isLast then cursor.alignment else max cursor.alignment alignment⟩)
  | .bytes layout =>
    let start := cursor.nextMultiple layout.alignment
    some (⟨start, none⟩, ⟨start + layout.size, 0, max cursor.alignment layout.alignment⟩)

/-- Places members one after the other, up to the first that has no place. -/
def advanceAll : Option Cursor → List Footprint → List (Option Position) × Option Cursor
  | cursor, [] => ([], cursor)
  | cursor, member :: members =>
    let placed := cursor.bind (·.advance members.isEmpty member)
    let (positions, final) := advanceAll (placed.map (·.2)) members
    (placed.map (·.1) :: positions, final)

def layout (cursor : Cursor) : Layout := ⟨cursor.nextMultiple cursor.alignment, cursor.alignment⟩

end Cursor

namespace Placement

/-- The exact placement of the members of an aggregate. The layouts of members are joined without
arithmetic that could exceed an address, so a union is only rounded up exactly. -/
def exactOfShape : Shape → List Footprint → Placement
  | .struct, members =>
    let (positions, final) := Cursor.advanceAll (some .start) members
    ⟨positions, final.map Cursor.layout⟩
  | .union, members =>
    ⟨(ofUnion members).positions,
      (joinLayouts? .empty members).map fun joined =>
        ⟨roundUp joined.size joined.alignment, joined.alignment⟩⟩

end Placement

namespace CType

mutual

/-- The layout of a type by the same rules over all natural numbers. -/
def exactLayout? : CType → Option Layout
  | unknown | forward _ _ => none
  | void => some .empty
  | scalar kind => some ⟨kind.size, kind.alignment⟩
  | object _ _ | classRef | block _ | wrapped .pointer _ => some .pointer
  | wrapped .const inner => exactLayout? inner
  | wrapped .atomic inner => exactLayout? inner
  | wrapped .complex inner => (exactLayout? inner).map (·.repeated 2)
  | wrapped .vector inner => (exactLayout? inner).map (·.vector)
  | bitfield width => (storageUnit? width).map fun unit => ⟨unit, unit⟩
  | array count element => (exactLayout? element).map (·.repeated count)
  | aggregate shape _ members => (Placement.exactOfShape shape (exactFootprints members)).layout

def exactFootprints : List Member → List Footprint
  | [] => []
  | ⟨_, type, _⟩ :: members => Footprint.ofType type (exactLayout? type) :: exactFootprints members

end

def exactPosition? (type : CType) (index : Nat) : Option Position :=
  match type with
  | aggregate shape _ members =>
    ((Placement.exactOfShape shape (exactFootprints members)).positions[index]?).join
  | _ => none

end CType

/-! ## Agreement of one step -/

/-- What is known is exact. -/
def AgreesWith {α : Type} (known exact : Option α) : Prop := ∀ value ∈ known, value ∈ exact

namespace AgreesWith

variable {α β : Type} {known exact : Option α}

theorem none (exact : Option α) : AgreesWith Option.none exact := fun _ absent => nomatch absent

theorem refl (known : Option α) : AgreesWith known known := fun _ present => present

theorem bind {step exactStep : α → Option β} (agrees : AgreesWith known exact)
    (steps : ∀ value, AgreesWith (step value) (exactStep value)) :
    AgreesWith (known.bind step) (exact.bind exactStep) := by
  intro result present
  obtain ⟨value, found, reached⟩ := Option.bind_eq_some_iff.mp present
  exact Option.bind_eq_some_iff.mpr ⟨value, agrees value found, steps value result reached⟩

/-- A checked step that follows a known value agrees with the exact step. -/
theorem bind_map {step : α → Option β} {exactStep : α → β} (agrees : AgreesWith known exact)
    (steps : ∀ value result, step value = some result → exactStep value = result) :
    AgreesWith (known.bind step) (exact.map exactStep) := by
  rw [Option.map_eq_bind]
  exact agrees.bind fun value result reached => congrArg some (steps value result reached)

end AgreesWith

theorem fits?_of_lt {amount : Nat} (fits : amount < addressLimit) : fits? amount = some amount :=
  if_pos fits

namespace Layout

variable {inner layout : Layout}

/-- A layout that is made from a size is known if the size fits. -/
theorem fits?_map_eq_some_iff {amount : Nat} {alignment : Nat → Nat} :
    (fits? amount).map (fun size => (⟨size, alignment size⟩ : Layout)) = some layout ↔
      ⟨amount, alignment amount⟩ = layout ∧ layout.size < addressLimit := by
  simp only [Option.map_eq_some_iff, fits?_eq_some_iff]
  constructor
  · rintro ⟨size, ⟨fits, rfl⟩, rfl⟩
    exact ⟨rfl, fits⟩
  · rintro ⟨rfl, fits⟩
    exact ⟨amount, ⟨fits, rfl⟩, rfl⟩

theorem repeated?_eq_some_iff {count : Nat} :
    inner.repeated? count = some layout ↔
      inner.repeated count = layout ∧ layout.size < addressLimit :=
  fits?_map_eq_some_iff

theorem vector?_eq_some_iff :
    inner.vector? = some layout ↔ inner.vector = layout ∧ layout.size < addressLimit :=
  fits?_map_eq_some_iff

end Layout

namespace Cursor

variable {cursor next final : Cursor} {position : Position} {footprint : Footprint}

theorem nextMultiple_of_nextMultiple? {step start : Nat} (found : cursor.nextMultiple? step = some start) :
    cursor.nextMultiple step = start := by
  obtain ⟨stop, ends, fits⟩ := Option.bind_eq_some_iff.mp found
  obtain ⟨_, rfl⟩ := fits?_eq_some_iff.mp ends
  exact (fits?_eq_some_iff.mp fits).2

theorem byteEnd_le_nextMultiple (cursor : Cursor) {step : Nat} (positive : 0 < step) :
    cursor.byteEnd ≤ cursor.nextMultiple step := le_roundUp cursor.byteEnd positive

theorem nextMultiple?_of_lt {step : Nat} (positive : 0 < step)
    (fits : cursor.nextMultiple step < addressLimit) :
    cursor.nextMultiple? step = some (cursor.nextMultiple step) := by
  have stop : cursor.byteEnd < addressLimit :=
    Nat.lt_of_le_of_lt (cursor.byteEnd_le_nextMultiple positive) fits
  have byteEnd_eq : cursor.byteEnd? = some cursor.byteEnd := fits?_of_lt stop
  rw [nextMultiple?, byteEnd_eq]
  exact fits?_of_lt fits

theorem layout_of_layout? {layout : Layout} (known : cursor.layout? = some layout) :
    cursor.layout = layout ∧ layout.size < addressLimit := by
  obtain ⟨size, rounded, rfl⟩ := Option.map_eq_some_iff.mp known
  obtain ⟨stop, _, fits⟩ := Option.bind_eq_some_iff.mp rounded
  obtain ⟨limit, rfl⟩ := fits?_eq_some_iff.mp fits
  exact ⟨by rw [layout, nextMultiple_of_nextMultiple? rounded], limit⟩

theorem takeBits_of_takeBits? {offset used width : Nat}
    (taken : cursor.takeBits? offset used width = some (position, next)) :
    cursor.takeBits offset used width = (position, next) := by
  obtain ⟨bytes, fits, result⟩ := Option.map_eq_some_iff.mp taken
  obtain ⟨_, rfl⟩ := fits?_eq_some_iff.mp fits
  exact result

theorem placeBits_of_placeBits? {width unit : Nat}
    (placed : cursor.placeBits? width unit = some (position, next)) :
    cursor.placeBits width unit = (position, next) := by
  simp only [placeBits?] at placed
  simp only [placeBits]
  split at placed
  next stays => rw [if_pos stays, takeBits_of_takeBits? placed]
  next crosses =>
    obtain ⟨start, fits, taken⟩ := Option.bind_eq_some_iff.mp placed
    obtain ⟨_, rfl⟩ := fits?_eq_some_iff.mp fits
    rw [if_neg crosses, takeBits_of_takeBits? taken]

/-- Whatever a step finds, the exact step finds too. -/
theorem place_agrees (isLast : Bool) (footprint : Footprint) :
    AgreesWith (cursor.place isLast footprint).1 ((cursor.advance isLast footprint).map (·.1)) ∧
      AgreesWith (cursor.place isLast footprint).2 ((cursor.advance isLast footprint).map (·.2)) := by
  unfold place
  split
  next => exact ⟨.none _, .none _⟩
  next =>
    split
    next start found =>
      simp only [advance, nextMultiple_of_nextMultiple? found]
      exact ⟨.refl _, .refl _⟩
    next => exact ⟨.none _, .none _⟩
  next width nonzero =>
    split
    next position next unit found =>
      obtain ⟨_, storage, result⟩ := Option.bind_eq_some_iff.mp found
      obtain ⟨_, placed, same⟩ := Option.map_eq_some_iff.mp result
      cases same
      simp only [advance, storage, Option.map_some, placeBits_of_placeBits? placed]
      exact ⟨.refl _, .refl _⟩
    next => exact ⟨.none _, .none _⟩
  next alignment =>
    split
    next start found =>
      simp only [advance, nextMultiple_of_nextMultiple? found]
      exact ⟨.refl _, .refl _⟩
    next => exact ⟨.none _, .none _⟩
  next layout =>
    split
    next start found =>
      simp only [advance, nextMultiple_of_nextMultiple? found]
      refine ⟨.refl _, fun next moved => ?_⟩
      obtain ⟨stop, fits, rfl⟩ := Option.map_eq_some_iff.mp moved
      obtain ⟨_, rfl⟩ := fits?_eq_some_iff.mp fits
      rfl
    next => exact ⟨.none _, .none _⟩

/-! ## Steps that fit -/

/-- A later cursor of the same structure, by whole bytes. -/
structure ReachesTo (cursor next : Cursor) : Prop where
  byteEnd_le : cursor.byteEnd ≤ next.byteEnd
  alignment_le : cursor.alignment ≤ next.alignment

theorem ReachesTo.trans (first : cursor.ReachesTo next) (second : next.ReachesTo final) :
    cursor.ReachesTo final :=
  ⟨Nat.le_trans first.byteEnd_le second.byteEnd_le,
    Nat.le_trans first.alignment_le second.alignment_le⟩

/-- Bits that are taken behind the cursor end behind it. -/
theorem byteEnd_le_placeBits {width unit : Nat} (positive : 0 < unit)
    (placed : cursor.placeBits width unit = (position, next)) : cursor.byteEnd ≤ next.byteEnd := by
  have split := Nat.mod_le cursor.bytes unit
  have rest := Nat.mod_lt cursor.bytes positive
  simp only [placeBits, takeBits] at placed
  split at placed
  · cases placed
    simp only [byteEnd]
    split <;> split <;> omega
  · cases placed
    simp only [byteEnd]
    split <;> split <;> omega

/-- The exact step never moves back. -/
theorem reachesTo_of_advance {isLast : Bool} (sound : footprint.IsSound)
    (placed : cursor.advance isLast footprint = some (position, next)) : cursor.ReachesTo next := by
  unfold advance at placed
  split at placed
  next => contradiction
  next =>
    cases placed
    exact ⟨cursor.byteEnd_le_nextMultiple (by decide), Nat.le_refl _⟩
  next width nonzero =>
    obtain ⟨unit, storage, result⟩ := Option.map_eq_some_iff.mp placed
    rcases inUnit : cursor.placeBits width unit with ⟨_, reached⟩
    rw [inUnit] at result
    cases result
    have positive := (storageUnit?_spec storage).1.pos
    have moved : cursor.byteEnd ≤ reached.byteEnd := byteEnd_le_placeBits positive inUnit
    exact ⟨moved, Nat.le_max_left _ _⟩
  next alignment =>
    cases placed
    refine ⟨cursor.byteEnd_le_nextMultiple (IsAlignment.pos sound), ?_⟩
    cases isLast
    · exact Nat.le_max_left _ _
    · exact Nat.le_refl _
  next layout =>
    cases placed
    refine ⟨?_, Nat.le_max_left _ _⟩
    exact Nat.le_trans (cursor.byteEnd_le_nextMultiple sound.alignment.pos) (Nat.le_add_right _ _)

theorem takeBits?_of_lt {offset used width : Nat}
    (fits : (cursor.takeBits offset used width).2.byteEnd < addressLimit) :
    cursor.takeBits? offset used width = some (cursor.takeBits offset used width) := by
  have bytes : offset + (used + width) / 8 < addressLimit :=
    Nat.lt_of_le_of_lt (Nat.le_add_right _ _) fits
  rw [takeBits?, fits?_of_lt bytes]
  rfl

theorem placeBits?_of_lt {width unit : Nat}
    (fits : (cursor.placeBits width unit).2.byteEnd < addressLimit) :
    cursor.placeBits? width unit = some (cursor.placeBits width unit) := by
  simp only [placeBits?, placeBits] at fits ⊢
  split at fits
  next stays => rw [if_pos stays, if_pos stays, takeBits?_of_lt fits]
  next crosses =>
    have start : cursor.bytes - cursor.bytes % unit + unit < addressLimit := by
      refine Nat.lt_of_le_of_lt ?_ fits
      simp only [takeBits, byteEnd]
      omega
    rw [if_neg crosses, if_neg crosses, fits?_of_lt start, Option.bind_some, takeBits?_of_lt fits]

/-- A step is the exact one if the cursor after it has an address. -/
theorem place_of_advance {isLast : Bool} (sound : footprint.IsSound)
    (placed : cursor.advance isLast footprint = some (position, next))
    (fits : next.byteEnd < addressLimit) :
    cursor.place isLast footprint = (some position, some next) := by
  unfold advance at placed
  split at placed
  next => contradiction
  next =>
    cases placed
    rw [place, nextMultiple?_of_lt (by decide) fits]
  next width nonzero =>
    obtain ⟨unit, storage, result⟩ := Option.map_eq_some_iff.mp placed
    rcases inUnit : cursor.placeBits width unit with ⟨_, reached⟩
    rw [inUnit] at result
    cases result
    have found : cursor.placeBits? width unit = some (cursor.placeBits width unit) :=
      placeBits?_of_lt (inUnit ▸ fits)
    simp only [place, storage, found, inUnit, Option.bind_some, Option.map_some]
  next alignment =>
    cases placed
    rw [place, nextMultiple?_of_lt (IsAlignment.pos sound) fits]
  next layout =>
    cases placed
    have start : cursor.nextMultiple layout.alignment < addressLimit :=
      Nat.lt_of_le_of_lt (Nat.le_add_right _ _) fits
    have stop : cursor.nextMultiple layout.alignment + layout.size < addressLimit := fits
    rw [place, nextMultiple?_of_lt sound.alignment.pos start]
    simp only [fits?_of_lt stop, Option.map_some]

/-! ## Runs -/

theorem advanceAll_none (members : List Footprint) : (advanceAll none members).2 = none := by
  induction members with
  | nil => rfl
  | cons member members ih => simpa only [advanceAll, Option.bind_none, Option.map_none] using ih

/-- A run that ends somewhere has taken its first step, and then runs on from there. -/
theorem advanceAll_cons {members : List Footprint}
    (ends : (advanceAll (some cursor) (footprint :: members)).2 = some final) :
    ∃ position next, cursor.advance members.isEmpty footprint = some (position, next) ∧
      (advanceAll (some cursor) (footprint :: members)).1 =
        some position :: (advanceAll (some next) members).1 ∧
      (advanceAll (some next) members).2 = some final := by
  rcases step : cursor.advance members.isEmpty footprint with _ | ⟨position, next⟩
  · simp only [advanceAll, Option.bind_some, step, Option.map_none, advanceAll_none] at ends
    contradiction
  · simp only [advanceAll, Option.bind_some, step, Option.map_some] at ends ⊢
    exact ⟨position, next, rfl, rfl, ends⟩

theorem reachesTo_of_advanceAll {members : List Footprint}
    (sound : ∀ member ∈ members, member.IsSound)
    (ends : (advanceAll (some cursor) members).2 = some final) : cursor.ReachesTo final := by
  induction members generalizing cursor with
  | nil =>
    cases ends
    exact ⟨Nat.le_refl _, Nat.le_refl _⟩
  | cons member members ih =>
    obtain ⟨first, others⟩ := List.forall_mem_cons.mp sound
    obtain ⟨position, next, step, _, rest⟩ := advanceAll_cons ends
    exact (reachesTo_of_advance first step).trans (ih others rest)

/-- A run is the exact one if its last cursor has an address, because the cursors before it lie
further down. -/
theorem placeAll_of_advanceAll {members : List Footprint}
    (sound : ∀ member ∈ members, member.IsSound)
    (ends : (advanceAll (some cursor) members).2 = some final)
    (fits : final.byteEnd < addressLimit) :
    (placeAll (some cursor) members).2 = some final := by
  induction members generalizing cursor with
  | nil => exact ends
  | cons member members ih =>
    obtain ⟨first, others⟩ := List.forall_mem_cons.mp sound
    obtain ⟨position, next, step, _, rest⟩ := advanceAll_cons ends
    have reached : next.byteEnd < addressLimit :=
      Nat.lt_of_le_of_lt (reachesTo_of_advanceAll others rest).byteEnd_le fits
    simp only [placeAll, place_of_advance first step reached]
    exact ih others rest

/-- A member with a layout has an exact place. -/
theorem isSome_advance (cursor : Cursor) (isLast : Bool) (sized : footprint.layout?.isSome) :
    (cursor.advance isLast footprint).isSome := by
  unfold advance
  split
  next => exact sized
  next => rfl
  next width _ =>
    have unit : (storageUnit? width).isSome := by simpa [Footprint.layout?] using sized
    simpa using unit
  next => rfl
  next => rfl

theorem exists_advanceAll {members : List Footprint} (cursor : Cursor)
    (sized : ∀ member ∈ members, member.layout?.isSome) :
    ∃ final, (advanceAll (some cursor) members).2 = some final := by
  induction members generalizing cursor with
  | nil => exact ⟨cursor, rfl⟩
  | cons member members ih =>
    obtain ⟨first, others⟩ := List.forall_mem_cons.mp sized
    obtain ⟨placed, step⟩ := Option.isSome_iff_exists.mp (isSome_advance cursor members.isEmpty first)
    simp only [advanceAll, Option.bind_some, step, Option.map_some]
    exact ih placed.2 others

end Cursor

/-! ## Aggregates -/

namespace Footprint

/-- The footprint of a member of unknown layout says nothing, and any other is exact. A bitfield is
always known as one. -/
inductive AgreesWith : Footprint → Footprint → Prop
  | exact (footprint : Footprint) : AgreesWith footprint footprint
  | unsized {exact : Footprint} (ordinary : ∀ width, exact ≠ bits width) : AgreesWith unsized exact

theorem agrees_ofType {known exact : Option Layout} (type : CType)
    (agrees : ForeignCall.AgreesWith known exact) :
    (ofType type known).AgreesWith (ofType type exact) := by
  cases known with
  | some layout =>
    rw [agrees layout rfl]
    exact .exact _
  | none =>
    by_cases isBits : ∃ width, type = .bitfield width
    · obtain ⟨width, rfl⟩ := isBits
      exact .exact (bits width)
    · have unknown : ofType type none = unsized := by
        cases type <;> simp_all [ofType]
      rw [unknown]
      refine .unsized fun width isWidth => ?_
      unfold ofType at isWidth
      split at isWidth
      next => exact isBits ⟨_, rfl⟩
      all_goals contradiction

theorem AgreesWith.layout? {known exact : Footprint} (agrees : known.AgreesWith exact) :
    ForeignCall.AgreesWith known.layout? exact.layout? := by
  cases agrees with
  | exact => exact .refl _
  | unsized => exact .none _

end Footprint

namespace Cursor

/-- A step over a member whose layout is unknown finds nothing. -/
theorem place_agrees_of_footprint (cursor : Cursor) (isLast : Bool) {member exactMember : Footprint}
    (agrees : member.AgreesWith exactMember) :
    AgreesWith (cursor.place isLast member).1 ((cursor.advance isLast exactMember).map (·.1)) ∧
      AgreesWith (cursor.place isLast member).2 ((cursor.advance isLast exactMember).map (·.2)) := by
  cases agrees with
  | exact => exact place_agrees isLast member
  | unsized => exact ⟨.none _, .none _⟩

theorem placeAll_agrees {known exact : Option Cursor} {members exactMembers : List Footprint}
    (cursors : AgreesWith known exact) (footprints : List.Forall₂ Footprint.AgreesWith members exactMembers) :
    List.Forall₂ AgreesWith (placeAll known members).1 (advanceAll exact exactMembers).1 ∧
      AgreesWith (placeAll known members).2 (advanceAll exact exactMembers).2 := by
  induction footprints generalizing known exact with
  | nil => cases known <;> exact ⟨.nil, cursors⟩
  | @cons member exactMember members exactMembers first rest ih =>
    -- Once the cursor is unknown, nothing is known of the rest, which agrees with anything.
    cases known with
    | none =>
      let placed := exact.bind (·.advance exactMembers.isEmpty exactMember)
      obtain ⟨positions, _⟩ := ih (.none (placed.map (·.2)))
      rw [placeAll_none] at positions ⊢
      exact ⟨.cons (.none _) positions, .none _⟩
    | some cursor =>
      rw [cursors cursor rfl]
      have isLast : exactMembers.isEmpty = members.isEmpty := by cases rest <;> rfl
      obtain ⟨position, next⟩ := cursor.place_agrees_of_footprint members.isEmpty first
      obtain ⟨positions, final⟩ := ih next
      simp only [placeAll, advanceAll, Option.bind_some, isLast]
      exact ⟨.cons position positions, final⟩

end Cursor

namespace Placement

variable {members exactMembers : List Footprint} {layout : Layout}

theorem joinLayouts?_agrees (joined : Layout)
    (footprints : List.Forall₂ Footprint.AgreesWith members exactMembers) :
    AgreesWith (joinLayouts? joined members) (joinLayouts? joined exactMembers) := by
  induction footprints generalizing joined with
  | nil => exact .refl _
  | cons first _ ih => exact first.layout?.bind fun layout => ih _

theorem ofUnion_positions_agree (footprints : List.Forall₂ Footprint.AgreesWith members exactMembers) :
    List.Forall₂ AgreesWith (ofUnion members).positions (ofUnion exactMembers).positions := by
  simp only [ofUnion, List.forall₂_map_left_iff, List.forall₂_map_right_iff]
  refine footprints.imp fun member exactMember agrees => ?_
  cases agrees with
  | exact => exact .refl _
  | unsized ordinary =>
    cases exactMember with
    | bits width => exact absurd rfl (ordinary width)
    | bytes _ | emptyArray _ | unsized => exact .refl _

/-- The placement of an aggregate is exact where it is known. -/
theorem ofShape_agrees (shape : Shape)
    (footprints : List.Forall₂ Footprint.AgreesWith members exactMembers) :
    List.Forall₂ AgreesWith (ofShape shape members).positions (exactOfShape shape exactMembers).positions ∧
      AgreesWith (ofShape shape members).layout (exactOfShape shape exactMembers).layout := by
  cases shape with
  | struct =>
    obtain ⟨positions, final⟩ := Cursor.placeAll_agrees (.refl (some .start)) footprints
    exact ⟨positions, final.bind_map fun _ _ known => (Cursor.layout_of_layout? known).1⟩
  | union =>
    refine ⟨ofUnion_positions_agree footprints, ?_⟩
    refine (joinLayouts?_agrees .empty footprints).bind_map fun joined layout known => ?_
    exact (Layout.fits?_map_eq_some_iff.mp known).1

theorem size_lt_of_ofShape {shape : Shape} (known : (ofShape shape members).layout = some layout) :
    layout.size < addressLimit := by
  cases shape with
  | struct =>
    obtain ⟨final, _, found⟩ := Option.bind_eq_some_iff.mp known
    exact (Cursor.layout_of_layout? found).2
  | union =>
    obtain ⟨joined, _, rounded⟩ := Option.bind_eq_some_iff.mp known
    exact (Layout.fits?_map_eq_some_iff.mp rounded).2

/-- An exact size below the limit is found. -/
theorem ofShape_of_exactOfShape {shape : Shape} (sound : ∀ member ∈ members, member.IsSound)
    (exact : (exactOfShape shape members).layout = some layout) (fits : layout.size < addressLimit) :
    (ofShape shape members).layout = some layout := by
  cases shape with
  | struct =>
    obtain ⟨final, ends, rfl⟩ := Option.map_eq_some_iff.mp exact
    have reaches := Cursor.reachesTo_of_advanceAll sound ends
    have positive : 0 < final.alignment := Nat.lt_of_lt_of_le Nat.zero_lt_one reaches.alignment_le
    have stop : final.byteEnd < addressLimit :=
      Nat.lt_of_le_of_lt (final.byteEnd_le_nextMultiple positive) fits
    have run := Cursor.placeAll_of_advanceAll sound ends stop
    have size : final.layout? = some final.layout := by
      rw [Cursor.layout?, Cursor.nextMultiple?_of_lt positive fits]
      rfl
    simp only [ofShape, ofStruct, run, Option.bind_some, size]
  | union =>
    obtain ⟨joined, join, rfl⟩ := Option.map_eq_some_iff.mp exact
    have size := fits?_of_lt fits
    simp only [ofShape, ofUnion, join, Option.bind_some, size, Option.map_some]

theorem exists_joinLayouts? (joined : Layout) (sized : ∀ member ∈ members, member.layout?.isSome) :
    ∃ layout, joinLayouts? joined members = some layout := by
  induction members generalizing joined with
  | nil => exact ⟨joined, rfl⟩
  | cons member members ih =>
    obtain ⟨first, others⟩ := List.forall_mem_cons.mp sized
    obtain ⟨single, known⟩ := Option.isSome_iff_exists.mp first
    simp only [joinLayouts?, known, Option.bind_some]
    exact ih _ others

/-- An aggregate of members with a layout has an exact one. -/
theorem exists_exactOfShape (shape : Shape) (sized : ∀ member ∈ members, member.layout?.isSome) :
    ∃ layout, (exactOfShape shape members).layout = some layout := by
  cases shape with
  | struct =>
    obtain ⟨final, ends⟩ := Cursor.start.exists_advanceAll sized
    exact ⟨final.layout, by simp only [exactOfShape, ends, Option.map_some]⟩
  | union =>
    obtain ⟨joined, join⟩ := exists_joinLayouts? .empty sized
    exact ⟨_, by simp only [exactOfShape, join, Option.map_some]; rfl⟩

end Placement

end ForeignCall
