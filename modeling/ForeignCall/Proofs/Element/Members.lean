import ForeignCall.Proofs.Element.Tracking

/-! # Elements of a structure's members

A type is passed as an element (`CType.PassedAs`) if the element has the layout that the type model
gives the type. A member whose elements are added where the cursor puts it `Follows` the cursor:
bitfields do, and types and arrays of types that are passed as an element. Members that have no elements
(`CType.isSilent`) do as well, but the elements of the structure do not cover them. So the elements of a
structure have the layout that its other members cover (`CType.coveredLayout`), and the structure is
passed as an element itself if that is its own layout (`CType.exists_passedAs_struct`), as it is if all
members have elements (`CType.coveredLayout_of_loud`).
-/

namespace ForeignCall

theorem Field.offset?_of_position {field : Field} {position : Position}
    (known : field.position = some position) : field.offset? = some position.offset := by
  rw [offset?, known, Option.map_some]

namespace CType

/-- The elements collected for a structure, with the bytes recorded for each. -/
def structRuns (name : Option String) (members : List Member) : Except InterfaceError Runs :=
  ((placedFields .struct members).zipWith PassedField.mk (passings members)).foldlM
    (placeField (aggregate .struct name members)) []

/-- A type of known layout that is passed as an element of the same layout. -/
structure PassedAs (type : CType) (element : Element) : Prop where
  passing_eq : type.passing = .one (.ok element)
  layout?_eq : type.layout? = some element.layout
  positive : 0 < element.layout.size

/-- A bitfield of no width or an array of no elements, which has no element as a member. -/
def isSilent (type : CType) : Bool :=
  match type.unqualified with
  | .bitfield 0 | .array 0 _ => true
  | _ => false

end CType

/-- What the elements of a structure cover, with one more field. -/
def Field.cover (part : Layout) (field : Field) : Layout :=
  match field.offset?, field.type.layout? with
  | some offset, some layout => if field.type.isSilent then part else part.span offset layout
  | _, _ => part

namespace CType

/-- The layout of a structure as far as its members have elements. -/
def coveredLayout (members : List Member) : Layout :=
  Element.closeLayout ((placedFields .struct members).foldl Field.cover .empty)

/-- Wherever the cursor puts a member of the type, the elements added for it follow. -/
def Follows (type : CType) : Prop :=
  ∀ ⦃isLast : Bool⦄ ⦃cursor next : Cursor⦄ ⦃position : Position⦄ ⦃runs : Runs⦄ (parent : CType)
    (field : Field), field.type = type → field.position = some position →
    runs.Tracks cursor.freeBit → cursor.IsValid →
    cursor.place isLast type.footprint = (some position, some next) →
      ∃ added, placeField parent runs ⟨field, type.passing⟩ = .ok added ∧
        added.Tracks next.freeBit ∧ added.layout = field.cover runs.layout ∧
        (runs ≠ [] ∨ type.isSilent = false → added ≠ [])

variable {type item : CType} {element : Element} {name : Option String} {members : List Member}
variable {layout : Layout}

theorem passing_unqualified (type : CType) : type.unqualified.passing = type.passing := by
  fun_induction unqualified type with
  | case1 inner ih | case2 inner ih => rw [ih, passing]
  | case3 => rfl

theorem passing_of_isSilent (silent : type.isSilent = true) :
    type.passing = .bits 0 ∨ ∃ element, type.passing = .many 0 element := by
  unfold isSilent at silent
  split at silent
  next kind =>
    rw [← passing_unqualified, kind]
    exact .inl rfl
  next item kind =>
    rw [← passing_unqualified, kind]
    exact .inr ⟨_, rfl⟩
  next => contradiction

theorem loud_of_passing (noGap : type.passing ≠ .bits 0)
    (noTail : ∀ element, type.passing ≠ .many 0 element) : type.isSilent = false := by
  rw [Bool.eq_false_iff]
  intro silent
  rcases passing_of_isSilent silent with gap | ⟨element, tail⟩
  · exact noGap gap
  · exact noTail element tail

theorem PassedAs.loud (passed : type.PassedAs element) : type.isSilent = false := by
  apply loud_of_passing <;> simp [passed.passing_eq]

/-- A member with elements takes storage as a bitfield or as an ordinary member. -/
theorem footprint_of_loud (loud : type.isSilent = false) (known : type.layout? = some layout) :
    (∃ width, type = .bitfield (width + 1)) ∨ type.footprint = .bytes layout := by
  rw [footprint, known]
  cases type with
  | bitfield width =>
    cases width with
    | zero => contradiction
    | succ width => exact .inl ⟨width, rfl⟩
  | array count item =>
    cases count with
    | zero => contradiction
    | succ count => exact .inr rfl
  | _ => exact .inr rfl

namespace PassedAs

theorem element_eq (passed : type.PassedAs element) : type.element = .ok element := by
  rw [CType.element, passed.passing_eq, Passing.element]

theorem isSound (passed : type.PassedAs element) : element.layout.IsSound :=
  isSound_of_layout? type passed.layout?_eq

theorem footprint_eq (passed : type.PassedAs element) : type.footprint = .bytes element.layout := by
  have passing_eq := passed.passing_eq
  rw [footprint, passed.layout?_eq]
  cases type <;> first | rfl | simp [passing] at passing_eq

theorem const (passed : type.PassedAs element) : (wrapped .const type).PassedAs element :=
  ⟨by rw [passing, passed.passing_eq], by rw [layout?, passed.layout?_eq], passed.positive⟩

theorem atomic (passed : type.PassedAs element) : (wrapped .atomic type).PassedAs element :=
  ⟨by rw [passing, passed.passing_eq], by rw [layout?, passed.layout?_eq], passed.positive⟩

end PassedAs

/-! ## Members -/

/-- A member that has been placed has a layout. -/
theorem isSized_of_settledAt {position : Position} {cursor : Cursor}
    (settled : type.footprint.SettledAt position cursor) : type.isSized = true := by
  cases known : type.layout? with
  | some layout => rw [isSized, known, Option.isSome_some]
  | none =>
    rw [footprint, known, Footprint.ofType.eq_def] at settled
    split at settled
    next width _ =>
      obtain ⟨_, _, _, unit, storage, _⟩ := settled
      simp [layout?, storage] at known
    next => exact settled.elim
    next same => cases same
    next same => cases same

/-- No cursor stands behind a member without a layout. -/
theorem follows_of_layout? (follows : ∀ layout, type.layout? = some layout → type.Follows) :
    type.Follows := by
  intro isLast cursor next position runs parent field type_eq position_eq tracks valid placed
  obtain ⟨_, same, places⟩ := Cursor.place_spec valid (isSound_footprint _) placed
  cases same
  obtain ⟨layout, known⟩ := Option.isSome_iff_exists.mp (isSized_of_settledAt places.settled)
  exact follows layout known parent field type_eq position_eq tracks valid placed

theorem cover_of_known {field : Field} {position : Position} (part : Layout) (type_eq : field.type = type)
    (position_eq : field.position = some position) (known : type.layout? = some layout) :
    field.cover part = if type.isSilent then part else part.span position.offset layout := by
  subst type_eq
  simp only [Field.cover, Field.offset?_of_position position_eq, known]

/-- A member without elements leaves the elements as they are. -/
theorem follows_of_isSilent (silent : type.isSilent = true) : type.Follows := by
  refine follows_of_layout? fun layout known => ?_
  intro isLast cursor next position runs parent field type_eq position_eq tracks valid placed
  have offset_eq := Field.offset?_of_position position_eq
  obtain ⟨_, same, places⟩ := Cursor.place_spec valid (isSound_footprint _) placed
  refine ⟨runs, ?_, tracks.later places.precedes.freeBit_le, ?_, ?_⟩
  · rcases passing_of_isSilent silent with passing_eq | ⟨_, passing_eq⟩ <;>
      simp only [placeField, offset_eq, passing_eq]
  · rw [cover_of_known _ type_eq position_eq known, if_pos silent]
  · rintro (nonempty | loud)
    · exact nonempty
    · exact absurd silent (by simp [loud])

/-- A member with elements adds its layout to what they cover. -/
theorem follows_of_span (loud : type.isSilent = false) (known : type.layout? = some layout)
    (positive : 0 < layout.size)
    (spans : ∀ ⦃isLast : Bool⦄ ⦃cursor next : Cursor⦄ ⦃position : Position⦄ ⦃runs : Runs⦄
      (parent : CType) (field : Field), field.type = type → field.offset? = some position.offset →
      runs.Tracks cursor.freeBit → cursor.IsValid →
      cursor.place isLast type.footprint = (some position, some next) →
        ∃ added, placeField parent runs ⟨field, type.passing⟩ = .ok added ∧
          added.Tracks next.freeBit ∧ added.layout = runs.layout.span position.offset layout) :
    type.Follows := by
  intro isLast cursor next position runs parent field type_eq position_eq tracks valid placed
  have offset_eq := Field.offset?_of_position position_eq
  obtain ⟨added, found, follows, covers⟩ :=
    spans parent field type_eq offset_eq tracks valid placed
  refine ⟨added, found, follows, ?_, fun _ => ?_⟩
  · rw [covers, cover_of_known _ type_eq position_eq known, loud]
    rfl
  · have size_eq : Runs.stop added = max runs.layout.size (position.offset + layout.size) := by
      rw [← follows.natural.size_eq, covers, Layout.span]
    exact Runs.ne_nil_of_stop_pos (by omega)

/-- A bitfield that has been placed took bits of its storage unit, which counts for the alignment. -/
private theorem place_bits {isLast : Bool} {cursor next : Cursor} {position : Position} {width unit : Nat}
    (storage : storageUnit? (width + 1) = some unit)
    (placed : cursor.place isLast (.bits (width + 1)) = (some position, some next)) :
    ∃ moved, cursor.placeBits? (width + 1) unit = some (position, moved) ∧
      next = { moved with alignment := max cursor.alignment unit } := by
  simp only [Cursor.place, storage, Option.bind_some] at placed
  split at placed
  next found moved inUnit result =>
    obtain ⟨_, bitsPlaced, same⟩ := Option.map_eq_some_iff.mp result
    cases same
    cases placed
    exact ⟨moved, bitsPlaced, rfl⟩
  next => simp at placed

theorem follows_bitfield (width : Nat) : (bitfield (width + 1)).Follows := by
  refine follows_of_layout? fun layout known => ?_
  have isUnit := known
  rw [layout?] at isUnit
  obtain ⟨unit, storage, rfl⟩ := Option.map_eq_some_iff.mp isUnit
  have positive : 0 < unit := (Layout.isSound_storageUnit storage).alignment.pos
  refine follows_of_span rfl known positive ?_
  intro isLast cursor next position runs parent field type_eq offset_eq tracks valid placed
  obtain ⟨_, bitsPlaced, rfl⟩ := place_bits storage placed
  obtain ⟨following, covers⟩ := tracks.placeUnit valid (Nat.succ_pos width) storage bitsPlaced
  refine ⟨_, ?_, following, covers⟩
  simp only [placeField, offset_eq, passing, storage]

/-- An ordinary member starts at the next multiple of its alignment and takes its size. -/
private theorem place_bytes {isLast : Bool} {cursor next : Cursor} {position : Position}
    (valid : cursor.IsValid) (sound : layout.IsSound)
    (placed : cursor.place isLast (.bytes layout) = (some position, some next)) :
    layout.alignment ∣ position.offset ∧ cursor.freeBit ≤ 8 * position.offset ∧
      next = ⟨position.offset + layout.size, 0, max cursor.alignment layout.alignment⟩ := by
  simp only [Cursor.place] at placed
  split at placed
  next start found =>
    obtain ⟨position_eq, moved⟩ := Prod.mk.inj placed
    cases position_eq
    obtain ⟨stop, fits, rfl⟩ := Option.map_eq_some_iff.mp moved
    obtain ⟨_, rfl⟩ := fits?_eq_some_iff.mp fits
    obtain ⟨aligned, after⟩ := Cursor.nextMultiple?_spec valid sound.alignment.pos found
    exact ⟨aligned, after, rfl⟩
  next => simp at placed

/-- A bitfield behind qualifiers takes a whole storage unit, as an ordinary member. -/
theorem follows_of_bits {width unit : Nat} (passing_eq : type.passing = .bits (width + 1))
    (storage : storageUnit? (width + 1) = some unit) (known : type.layout? = some ⟨unit, unit⟩)
    (footprint_eq : type.footprint = .bytes ⟨unit, unit⟩) : type.Follows := by
  have isUnit : unit = 4 ∨ unit = 8 := by
    unfold storageUnit? at storage
    grind
  have loud : type.isSilent = false := by
    apply loud_of_passing <;> simp [passing_eq]
  refine follows_of_span loud known (by dsimp only; omega) ?_
  intro isLast cursor next position runs parent field type_eq offset_eq tracks valid placed
  rw [footprint_eq] at placed
  obtain ⟨aligned, after, rfl⟩ := place_bytes valid (Layout.isSound_storageUnit storage) placed
  refine ⟨_, ?_, tracks.placeWholeUnit isUnit aligned after⟩
  simp only [placeField, offset_eq, passing_eq, storage]

theorem PassedAs.follows (passed : type.PassedAs element) : type.Follows := by
  refine follows_of_span passed.loud passed.layout?_eq passed.positive ?_
  intro isLast cursor next position runs parent field type_eq offset_eq tracks valid placed
  rw [passed.footprint_eq] at placed
  obtain ⟨aligned, after, rfl⟩ := place_bytes valid passed.isSound placed
  refine ⟨_, ?_, tracks.place passed.isSound passed.positive aligned after⟩
  simp only [placeField, offset_eq, passed.passing_eq, type_eq, passed.layout?_eq]
  rfl

/-- An array of some elements that are passed, also behind qualifiers. -/
theorem PassedAs.follows_array {count : Nat} (passed : item.PassedAs element)
    (isArray : type.unqualified = array (count + 1) item) : type.Follows := by
  refine follows_of_layout? fun whole known => ?_
  have passing_eq : type.passing = .many (count + 1) (.ok element) := by
    rw [← passing_unqualified, isArray, passing, passed.passing_eq, Passing.element]
  have layout_eq : type.layout? = (fits? (element.layout.size * (count + 1))).map fun size =>
      ⟨size, element.layout.alignment⟩ := by
    rw [← layout?_unqualified, isArray, layout?, passed.layout?_eq]
    rfl
  obtain ⟨size, fits, rfl⟩ := Option.map_eq_some_iff.mp (layout_eq.symm.trans known)
  obtain ⟨_, rfl⟩ := fits?_eq_some_iff.mp fits
  have loud : type.isSilent = false := by simp only [isSilent, isArray]
  have positive : 0 < element.layout.size * (count + 1) :=
    Nat.mul_pos passed.positive (Nat.succ_pos _)
  refine follows_of_span loud known positive ?_
  intro isLast cursor next position runs parent field type_eq offset_eq tracks valid placed
  have footprint_eq : type.footprint =
      .bytes ⟨element.layout.size * (count + 1), element.layout.alignment⟩ := by
    rcases footprint_of_loud loud known with ⟨width, rfl⟩ | bytes
    · exact nomatch isArray
    · exact bytes
  rw [footprint_eq] at placed
  obtain ⟨aligned, after, rfl⟩ := place_bytes valid (isSound_of_layout? _ known) placed
  refine ⟨_, ?_, tracks.placeMany passed.isSound passed.positive aligned after⟩
  simp only [placeField, offset_eq, passing_eq, type_eq, isArray, passed.layout?_eq]
  rfl

/-! ## Structures -/

theorem passings_cons (member : Member) (members : List Member) :
    passings (member :: members) = member.type.passing :: passings members := by
  cases member
  rw [passings]

/-- The elements of members placed one after the other follow the cursor to the end. -/
theorem tracks_fieldsFrom {cursor final : Cursor} {runs : Runs} (parent : CType)
    (follows : ∀ member ∈ members, member.type.Follows) (tracks : runs.Tracks cursor.freeBit)
    (valid : cursor.IsValid)
    (ends : (Cursor.placeAll (some cursor) (footprints members)).2 = some final) :
    ∃ all, ((Cursor.fieldsFrom (some cursor) members).zipWith PassedField.mk
        (passings members)).foldlM (placeField parent) runs = .ok all ∧
      all.Tracks final.freeBit ∧
      all.layout = (Cursor.fieldsFrom (some cursor) members).foldl Field.cover runs.layout ∧
      (runs ≠ [] ∨ (∃ member ∈ members, member.type.isSilent = false) → all ≠ []) := by
  induction members generalizing cursor runs with
  | nil =>
    cases ends
    exact ⟨runs, rfl, tracks, rfl, by simp⟩
  | cons member members ih =>
    obtain ⟨position, next, step, fields_cons, rest⟩ := Cursor.fieldsFrom_cons valid ends
    obtain ⟨_, _, places⟩ := Cursor.place_spec valid (isSound_footprint _) step
    obtain ⟨added, placed, following, covers, kept⟩ :=
      follows member (List.mem_cons_self ..) parent ⟨member, some position⟩ rfl rfl tracks valid step
    obtain ⟨all, others, reached, covered, nonempty⟩ :=
      ih (fun other present => follows other (List.mem_cons_of_mem _ present)) following
        places.valid rest
    refine ⟨all, ?_, reached, ?_, ?_⟩
    · rw [fields_cons, passings_cons, List.zipWith_cons_cons, List.foldlM_cons]
      exact (congrArg (· >>= _) placed).trans others
    · rw [covered, fields_cons, List.foldl_cons, covers]
    · rintro (before | ⟨other, present, loud⟩)
      · exact nonempty (.inl (kept (.inl before)))
      · rcases List.mem_cons.mp present with rfl | present
        · exact nonempty (.inl (kept (.inr loud)))
        · exact nonempty (.inr ⟨other, present, loud⟩)

/-- A member with elements moves the cursor to the end of what they cover, or less far. -/
theorem place_of_loud {isLast : Bool} {cursor next : Cursor} {position : Position}
    (valid : cursor.IsValid) (loud : type.isSilent = false) (known : type.layout? = some layout)
    (placed : cursor.place isLast type.footprint = (some position, some next)) :
    next.alignment = max cursor.alignment layout.alignment ∧
      next.freeBit ≤ 8 * (position.offset + layout.size) := by
  rcases footprint_of_loud loud known with ⟨width, rfl⟩ | footprint_eq
  · rw [layout?] at known
    obtain ⟨unit, storage, rfl⟩ := Option.map_eq_some_iff.mp known
    obtain ⟨alignment, fitting⟩ := Cursor.storageUnit?_spec storage
    obtain ⟨moved, bitsPlaced, rfl⟩ := place_bits storage placed
    obtain ⟨start, _, _, inside, _, _, _, freeBit_eq⟩ :=
      Cursor.placeBits?_spec valid alignment.pos fitting bitsPlaced
    refine ⟨rfl, ?_⟩
    change Cursor.freeBit moved ≤ 8 * (position.offset + unit)
    omega
  · rw [footprint_eq] at placed
    obtain ⟨_, _, rfl⟩ := place_bytes valid (isSound_of_layout? _ known) placed
    exact ⟨rfl, Nat.le_refl _⟩

/-- If all members have elements, these cover everything before the cursor. -/
theorem cover_fieldsFrom {cursor final : Cursor} {part : Layout}
    (loud : ∀ member ∈ members, member.type.isSilent = false) (valid : cursor.IsValid)
    (ends : (Cursor.placeAll (some cursor) (footprints members)).2 = some final)
    (alignment_eq : part.alignment = cursor.alignment) (covers : cursor.freeBit ≤ 8 * part.size) :
    ((Cursor.fieldsFrom (some cursor) members).foldl Field.cover part).alignment =
        final.alignment ∧
      final.freeBit ≤
        8 * ((Cursor.fieldsFrom (some cursor) members).foldl Field.cover part).size := by
  induction members generalizing cursor part with
  | nil =>
    cases ends
    exact ⟨alignment_eq, covers⟩
  | cons member members ih =>
    obtain ⟨position, next, step, fields_cons, rest⟩ := Cursor.fieldsFrom_cons valid ends
    obtain ⟨_, same, places⟩ := Cursor.place_spec valid (isSound_footprint _) step
    cases same
    obtain ⟨layout, known⟩ := Option.isSome_iff_exists.mp (isSized_of_settledAt places.settled)
    have first := loud member (List.mem_cons_self ..)
    obtain ⟨next_alignment, within⟩ := place_of_loud valid first known step
    have cover_eq : Field.cover part ⟨member, some position⟩ = part.span position.offset layout := by
      rw [cover_of_known part rfl rfl known, first]
      rfl
    rw [fields_cons, List.foldl_cons, cover_eq]
    refine ih (fun other present => loud other (List.mem_cons_of_mem _ present)) places.valid rest ?_ ?_
    · rw [Layout.span, alignment_eq, next_alignment]
    · simp only [Layout.span]
      omega

/-- The elements collected for a structure follow the cursor to its end. -/
theorem tracks_structRuns (follows : ∀ member ∈ members, member.type.Follows)
    (known : (aggregate .struct name members).layout? = some layout) :
    ∃ final runs, (Cursor.placeAll (some .start) (footprints members)).2 = some final ∧
      final.layout? = some layout ∧ structRuns name members = .ok runs ∧ runs.Tracks final.freeBit ∧
      runs.layout = (placedFields .struct members).foldl Field.cover .empty ∧
      ((∃ member ∈ members, member.type.isSilent = false) → runs ≠ []) := by
  simp only [layout?] at known
  obtain ⟨final, ends, size⟩ := Option.bind_eq_some_iff.mp known
  obtain ⟨runs, collected, tracks, covers, nonempty⟩ :=
    tracks_fieldsFrom (aggregate .struct name members) follows Runs.tracks_start
      Cursor.isValid_start ends
  exact ⟨final, runs, ends, size, collected, tracks, covers, fun loud => nonempty (.inr loud)⟩

/-- The elements collected for a structure fall where they were recorded, and have the layout that its
members cover. -/
structure Collects (members : List Member) (runs : Runs) : Prop where
  natural : runs.IsNatural
  layout_eq : (Element.record runs.elements).layout = coveredLayout members
  positive : runs ≠ [] → 0 < (Element.record runs.elements).layout.size
  nonempty : (∃ member ∈ members, member.type.isSilent = false) → runs ≠ []

theorem exists_collects (follows : ∀ member ∈ members, member.type.Follows)
    (known : (aggregate .struct name members).layout? = some layout) :
    ∃ runs, structRuns name members = .ok runs ∧ Collects members runs := by
  obtain ⟨_, runs, _, _, collected, tracks, covers, nonempty⟩ := tracks_structRuns follows known
  have layout_eq : (Element.record runs.elements).layout = Element.closeLayout runs.layout := rfl
  refine ⟨runs, collected, tracks.natural, ?_, ?_, nonempty⟩
  · rw [layout_eq, covers, coveredLayout]
  · intro some_run
    have reached := tracks.nonempty some_run
    have rounded := le_roundUp runs.layout.size runs.one_le_alignment
    have size_eq := tracks.natural.size_eq
    change 0 < roundUp runs.layout.size runs.layout.alignment
    omega

/-- If all members have elements, these cover the structure. -/
theorem coveredLayout_of_loud (follows : ∀ member ∈ members, member.type.Follows)
    (loud : ∀ member ∈ members, member.type.isSilent = false)
    (known : (aggregate .struct name members).layout? = some layout) :
    coveredLayout members = layout := by
  obtain ⟨final, runs, ends, size, _, tracks, covers, _⟩ := tracks_structRuns follows known
  have valid : final.IsValid :=
    Cursor.placeAll_isValid Cursor.isValid_start (isSound_of_footprints members) ends
  obtain ⟨alignment_eq, reaches⟩ := cover_fieldsFrom loud Cursor.isValid_start ends
    (rfl : Layout.empty.alignment = 1) (Nat.le_refl 0)
  rw [coveredLayout, ← covers]
  apply tracks.layout_eq valid _ _ size
  · rw [covers]
    exact alignment_eq
  · rw [← tracks.natural.size_eq, covers]
    exact reaches

theorem passing_struct (name : Option String) (members : List Member) :
    (aggregate .struct name members).passing =
      .one (structRuns name members >>= fun runs =>
        if runs.isEmpty then .error (.emptyAggregate (aggregate .struct name members))
        else .ok (.record runs.elements)) := by
  rw [passing]
  rfl

/-- A structure of the layout that its members cover is passed as a structure of the elements collected
for it, which the calling convention puts where they were recorded. -/
theorem exists_passedAs_struct (follows : ∀ member ∈ members, member.type.Follows)
    (known : (aggregate .struct name members).layout? = some layout)
    (covered : coveredLayout members = layout) (nonempty : structRuns name members ≠ .ok []) :
    ∃ runs, structRuns name members = .ok runs ∧ runs.IsNatural ∧
      (aggregate .struct name members).PassedAs (.record runs.elements) := by
  obtain ⟨runs, collected, collects⟩ := exists_collects follows known
  have some_run : runs ≠ [] := by
    rintro rfl
    exact nonempty collected
  refine ⟨runs, collected, collects.natural, ?_, ?_, collects.positive some_run⟩
  · rw [passing_struct, collected]
    change Passing.one (if runs.isEmpty then _ else _) = _
    rw [if_neg (by simpa using some_run)]
  · rw [known, collects.layout_eq, covered]

/-- A structure of members with elements is passed as an element. -/
theorem exists_passedAs_of_loud (nonempty : members ≠ [])
    (follows : ∀ member ∈ members, member.type.Follows)
    (loud : ∀ member ∈ members, member.type.isSilent = false)
    (known : (aggregate .struct name members).layout? = some layout) :
    ∃ runs, structRuns name members = .ok runs ∧ runs.IsNatural ∧
      (aggregate .struct name members).PassedAs (.record runs.elements) := by
  obtain ⟨runs, collected, collects⟩ := exists_collects follows known
  obtain ⟨member, present⟩ := List.exists_mem_of_ne_nil members nonempty
  refine exists_passedAs_struct follows known (coveredLayout_of_loud follows loud known) ?_
  rw [collected]
  simpa using collects.nonempty ⟨member, present, loud member present⟩

end CType

end ForeignCall
