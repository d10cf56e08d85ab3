import ForeignCall.Proofs.Call.Preparation
import ForeignCall.Proofs.Element.Passable

/-! # Verified layouts

Verification compares the layouts of the aggregates that a signature names. It does not look at the
aggregates that these hold by value (`CType.Contains`). Differences inside may cancel out: a bitfield
of no width and an array of no elements take part in the layout of a structure and have no element. What
the members with elements cover (`CType.IsCovered`) makes all the difference: the aggregates inside a type
that can be passed match their elements exactly if every structure inside it is covered
(`CType.matchesWithin_iff`). A structure that holds neither kind of member always is.
-/

namespace ForeignCall

/-- What has to have an element for a type to be passed this way has one. -/
def Passing.Succeeds : Passing → Prop
  | .one element => ∃ found, element = .ok found
  | .many count element => 0 < count → ∃ found, element = .ok found
  | .bits _ => True

namespace CType

/-- A type holds another one by value. A union holds its members in one another's place, and is passed
as a whole. -/
inductive Contains : CType → CType → Prop where
  | self (type : CType) : Contains type type
  | const {inner part : CType} (inside : Contains inner part) : Contains (.wrapped .const inner) part
  | atomic {inner part : CType} (inside : Contains inner part) :
    Contains (.wrapped .atomic inner) part
  | complex {inner part : CType} (inside : Contains inner part) :
    Contains (.wrapped .complex inner) part
  | item {count : Nat} {item part : CType} (positive : 0 < count) (inside : Contains item part) :
    Contains (.array count item) part
  | member {name : Option String} {members : List Member} {member : Member} {part : CType}
    (present : member ∈ members) (inside : Contains member.type part) :
    Contains (.aggregate .struct name members) part

/-- A type holds no bitfield of no width and no array of no elements. -/
structure IsOrdinary (type : CType) : Prop where
  noGap : ¬type.Contains (.bitfield 0)
  noTail : ∀ item, ¬type.Contains (.array 0 item)

variable {type inner outer part item : CType} {element : Element} {layout : Layout}
variable {name : Option String} {members : List Member}

theorem Contains.trans {third : CType} (first : type.Contains part) (second : part.Contains third) :
    type.Contains third := by
  induction first with
  | self => exact second
  | const _ ih => exact .const (ih second)
  | atomic _ ih => exact .atomic (ih second)
  | complex _ ih => exact .complex (ih second)
  | item positive _ ih => exact .item positive (ih second)
  | member present _ ih => exact .member present (ih second)

theorem IsOrdinary.of_contains (ordinary : type.IsOrdinary) (contains : type.Contains part) :
    part.IsOrdinary :=
  ⟨fun inside => ordinary.noGap (contains.trans inside),
    fun item inside => ordinary.noTail item (contains.trans inside)⟩

theorem contains_unqualified (type : CType) : type.Contains type.unqualified := by
  fun_induction unqualified type with
  | case1 inner ih => exact .const ih
  | case2 inner ih => exact .atomic ih
  | case3 => exact .self _

/-! ## Parts of known layout -/

/-- A type of known layout holds only types of known layout. -/
theorem isSized_of_contains (contains : type.Contains part) (sized : type.isSized = true) :
    part.isSized = true := by
  induction contains with
  | self => exact sized
  | const _ ih | atomic _ ih => exact ih (by simpa only [isSized, layout?] using sized)
  | complex _ ih | item _ _ ih =>
    refine ih ?_
    simp only [isSized, layout?] at sized ⊢
    exact Option.isSome_of_isSome_bind sized
  | member present _ ih => exact ih (isSized_of_member sized present)

/-! ## Parts that can be passed -/

theorem succeeds_of_element_eq (found : type.element = .ok element) : type.passing.Succeeds := by
  unfold CType.element at found
  cases passing_eq : type.passing with
  | one only =>
    rw [passing_eq] at found
    exact ⟨element, found⟩
  | many count each =>
    rw [passing_eq] at found
    contradiction
  | bits width => trivial

/-- A fold that succeeds has succeeded at every item. -/
theorem exists_step_of_foldlM {ε α β : Type} {step : β → α → Except ε β} {items : List α}
    {start final : β} {item : α} (done : items.foldlM step start = .ok final)
    (present : item ∈ items) : ∃ before after, step before item = .ok after := by
  induction items generalizing start with
  | nil => contradiction
  | cons first items ih =>
    rw [List.foldlM_cons] at done
    obtain ⟨next, stepped, rest⟩ := bind_eq_ok_iff.mp done
    rcases List.mem_cons.mp present with rfl | present
    · exact ⟨start, next, stepped⟩
    · exact ih rest present

theorem succeeds_of_placeField {parent : CType} {runs added : Runs} {passed : PassedField}
    (placed : placeField parent runs passed = .ok added) : passed.passing.Succeeds := by
  unfold placeField at placed
  split at placed
  next => contradiction
  next =>
    split at placed
    next isGap => rw [isGap]; trivial
    next _ isBits => rw [isBits]; trivial
    next isEmpty =>
      rw [isEmpty]
      exact fun positive => absurd positive (Nat.lt_irrefl 0)
    next count element _ isArray =>
      rw [isArray]
      obtain ⟨found, isElement, _⟩ := bind_eq_ok_iff.mp placed
      exact fun _ => ⟨found, isElement⟩
    next element isOne =>
      rw [isOne]
      split at placed
      next =>
        obtain ⟨found, isElement, _⟩ := bind_eq_ok_iff.mp placed
        exact ⟨found, isElement⟩
      next => contradiction

theorem exists_mem_zipWith {member : Member} {fields : List Field}
    (fields_eq : fields.map (·.toMember) = members) (present : member ∈ members) :
    ∃ field, PassedField.mk field member.type.passing ∈
      fields.zipWith PassedField.mk (passings members) := by
  induction members generalizing fields with
  | nil => contradiction
  | cons first members ih =>
    obtain ⟨field, fields, rfl, _, others⟩ := List.map_eq_cons_iff.mp fields_eq
    rw [passings_cons, List.zipWith_cons_cons]
    rcases List.mem_cons.mp present with rfl | present
    · exact ⟨field, List.mem_cons_self ..⟩
    · obtain ⟨found, among⟩ := ih others present
      exact ⟨found, List.mem_cons_of_mem _ among⟩

/-- A complex number that can be passed has parts that can be passed on their own. -/
theorem exists_element_of_complex (succeeds : (wrapped .complex inner).passing.Succeeds) :
    ∃ element, inner.element = .ok element := by
  rw [passing] at succeeds
  obtain ⟨_, mapped⟩ := succeeds
  cases found : inner.element with
  | error error =>
    rw [← CType.element, found] at mapped
    contradiction
  | ok element => exact ⟨element, rfl⟩

/-- The members of a structure that is passed can be passed. -/
theorem succeeds_of_member {member : Member}
    (succeeds : (aggregate .struct name members).passing.Succeeds) (present : member ∈ members) :
    member.type.passing.Succeeds := by
  rw [passing] at succeeds
  obtain ⟨element, found⟩ := succeeds
  obtain ⟨runs, collected, _⟩ := bind_eq_ok_iff.mp found
  obtain ⟨field, among⟩ := exists_mem_zipWith (map_toMember_placedFields .struct members) present
  obtain ⟨_, _, placed⟩ := exists_step_of_foldlM collected among
  exact succeeds_of_placeField placed

/-- What a type holds that can be passed can be passed. -/
theorem succeeds_of_contains (contains : type.Contains part) (succeeds : type.passing.Succeeds) :
    part.passing.Succeeds := by
  induction contains with
  | self => exact succeeds
  | const _ ih | atomic _ ih => exact ih (by rwa [passing] at succeeds)
  | complex _ ih =>
    obtain ⟨element, found⟩ := exists_element_of_complex succeeds
    exact ih (succeeds_of_element_eq found)
  | item positive _ ih =>
    rw [passing] at succeeds
    obtain ⟨element, found⟩ := succeeds positive
    exact ih (succeeds_of_element_eq found)
  | member present _ ih => exact ih (succeeds_of_member succeeds present)

/-! ## Elements of the right layout -/

/-- A type whose element, if it has one, is of its own layout, and whose elements as a member follow
the cursor. -/
structure IsReproduced (type : CType) : Prop where
  passedAs : ∀ {element : Element} {layout : Layout}, type.element = .ok element →
    type.layout? = some layout → type.PassedAs element
  follows : type.Follows

/-- Only types of known layout matter. -/
theorem isReproduced_of_layout? (passes : ∀ layout, type.layout? = some layout →
    ∃ element, type.PassedAs element) : type.IsReproduced where
  passedAs := by
    intro element layout found known
    obtain ⟨other, passed⟩ := passes layout known
    rw [passed.element_eq] at found
    cases found
    exact passed
  follows := by
    refine follows_of_layout? fun layout known => ?_
    obtain ⟨element, passed⟩ := passes layout known
    exact passed.follows

/-- Members that are placed and passed alike move the elements alike. -/
theorem Follows.congr (follows : inner.Follows) (passing_eq : outer.passing = inner.passing)
    (unqualified_eq : outer.unqualified = inner.unqualified)
    (layout?_eq : outer.layout? = inner.layout?) (footprint_eq : outer.footprint = inner.footprint) :
    outer.Follows := by
  intro isLast cursor next position runs parent field type_eq position_eq tracks valid placed
  rw [footprint_eq] at placed
  obtain ⟨added, found, reached, covers, nonempty⟩ :=
    follows parent { field with type := inner } rfl position_eq tracks valid placed
  have silent_eq : outer.isSilent = inner.isSilent := by rw [isSilent, unqualified_eq, isSilent]
  refine ⟨added, ?_, reached, ?_, ?_⟩
  · rw [← found]
    simp only [placeField, passing_eq, type_eq, unqualified_eq, layout?_eq, Field.offset?]
  · rw [covers]
    simp only [Field.cover, type_eq, silent_eq, layout?_eq, Field.offset?]
  · rwa [silent_eq]

/-- A qualifier makes an ordinary member of a bitfield or an empty array and changes nothing else. -/
theorem Follows.qualified (follows : inner.Follows) (passing_eq : outer.passing = inner.passing)
    (unqualified_eq : outer.unqualified = inner.unqualified) (layout?_eq : outer.layout? = inner.layout?)
    (footprint_eq : ∀ layout, inner.layout? = some layout → outer.footprint = .bytes layout) :
    outer.Follows := by
  cases silent : inner.isSilent with
  | true => exact follows_of_isSilent (by rwa [isSilent, unqualified_eq])
  | false =>
    refine follows_of_layout? fun layout known => ?_
    have known_inner : inner.layout? = some layout := layout?_eq.symm.trans known
    have outer_footprint := footprint_eq layout known_inner
    rcases footprint_of_loud silent known_inner with ⟨width, rfl⟩ | inner_footprint
    · rw [layout?] at known_inner
      obtain ⟨unit, storage, rfl⟩ := Option.map_eq_some_iff.mp known_inner
      exact follows_of_bits (by rw [passing_eq, passing]) storage known outer_footprint
    · exact follows.congr passing_eq unqualified_eq layout?_eq
        (outer_footprint.trans inner_footprint.symm)

theorem IsReproduced.qualified (reproduced : inner.IsReproduced)
    (passing_eq : outer.passing = inner.passing)
    (unqualified_eq : outer.unqualified = inner.unqualified)
    (layout?_eq : outer.layout? = inner.layout?)
    (footprint_eq : ∀ layout, inner.layout? = some layout → outer.footprint = .bytes layout) :
    outer.IsReproduced where
  passedAs := by
    intro element layout found known
    have found : inner.element = .ok element := by
      rwa [CType.element, passing_eq, unqualified_eq] at found
    have passed := reproduced.passedAs found (layout?_eq.symm.trans known)
    exact ⟨passing_eq.trans passed.passing_eq, layout?_eq.trans passed.layout?_eq, passed.positive⟩
  follows := reproduced.follows.qualified passing_eq unqualified_eq layout?_eq footprint_eq

/-- A member without elements is not passed on its own. -/
theorem isReproduced_of_isSilent (silent : type.isSilent = true) : type.IsReproduced where
  passedAs := by
    intro element layout found _
    rcases passing_of_isSilent silent with passing_eq | ⟨_, passing_eq⟩ <;>
    · rw [CType.element, passing_eq] at found
      contradiction
  follows := follows_of_isSilent silent

theorem isReproduced_union (succeeds : (aggregate .union name members).passing.Succeeds) :
    (aggregate .union name members).IsReproduced := by
  refine isReproduced_of_layout? fun layout known => ?_
  rw [passing] at succeeds
  obtain ⟨element, found⟩ := succeeds
  simp only [unionElement, known] at found
  split at found
  next => contradiction
  next nonempty =>
    simp only [Bool.or_eq_true, List.isEmpty_iff, decide_eq_true_eq, not_or] at nonempty
    cases isUnit : unionUnit? members layout with
    | none =>
      rw [isUnit] at found
      contradiction
    | some unit =>
      exact passedAs_union known (Nat.pos_of_ne_zero nonempty.2)
        (alignment_le_of_unionUnit known nonempty.1 isUnit)

theorem structRuns_ne_nil (succeeds : (aggregate .struct name members).passing.Succeeds) :
    structRuns name members ≠ .ok [] := by
  intro collected
  rw [passing_struct, collected] at succeeds
  obtain ⟨_, found⟩ := succeeds
  exact nomatch found

/-- If its members follow the cursor, a structure has the layout that they cover. -/
def Closes (name : Option String) (members : List Member) : Prop :=
  (∀ member ∈ members, member.type.Follows) →
    ∀ layout, (aggregate .struct name members).layout? = some layout → coveredLayout members = layout

/-- The structures that a type holds have the layouts that their members cover. -/
def ClosesWithin (type : CType) : Prop :=
  ∀ name members, type.Contains (aggregate .struct name members) → Closes name members

theorem ClosesWithin.of_contains (closes : type.ClosesWithin) (contains : type.Contains part) :
    part.ClosesWithin :=
  fun name members inside => closes name members (contains.trans inside)

theorem isReproduced_struct (succeeds : (aggregate .struct name members).passing.Succeeds)
    (follows : ∀ member ∈ members, member.type.Follows) (closes : Closes name members) :
    (aggregate .struct name members).IsReproduced := by
  refine isReproduced_of_layout? fun layout known => ?_
  obtain ⟨_, _, _, passed⟩ :=
    exists_passedAs_struct follows known (closes follows layout known) (structRuns_ne_nil succeeds)
  exact ⟨_, passed⟩

mutual

/-- A type that can be passed is reproduced if the structures inside it are. -/
theorem isReproduced_of_closesWithin : (type : CType) → type.ClosesWithin → type.passing.Succeeds →
    type.IsReproduced
  | unknown, _, succeeds | void, _, succeeds | forward _ _, _, succeeds
  | wrapped .vector _, _, succeeds => by
    rw [passing] at succeeds
    · obtain ⟨_, found⟩ := succeeds
      contradiction
    all_goals simp
  | scalar kind, _, succeeds => by
    have narrow : kind ≠ .int128 ∧ kind ≠ .unsignedInt128 := by
      constructor <;> rintro rfl <;> obtain ⟨_, found⟩ := succeeds <;> contradiction
    exact isReproduced_of_layout? fun _ _ => passedAs_scalar narrow
  | object _ _, _, _ | classRef, _, _ | block _, _, _ | wrapped .pointer _, _, _ =>
    isReproduced_of_layout? fun _ _ => ⟨.pointer, passedAs_pointer rfl rfl⟩
  | wrapped .const inner, closes, succeeds => by
    have ih := isReproduced_of_closesWithin inner (closes.of_contains (.const (.self inner)))
      (by rwa [passing] at succeeds)
    refine ih.qualified (by rw [passing]) rfl (by rw [layout?]) fun layout known => ?_
    simp only [footprint, layout?, known, Footprint.ofType]
  | wrapped .atomic inner, closes, succeeds => by
    have ih := isReproduced_of_closesWithin inner (closes.of_contains (.atomic (.self inner)))
      (by rwa [passing] at succeeds)
    refine ih.qualified (by rw [passing]) rfl (by rw [layout?]) fun layout known => ?_
    simp only [footprint, layout?, known, Footprint.ofType]
  | wrapped .complex inner, closes, succeeds => by
    obtain ⟨element, found⟩ := exists_element_of_complex succeeds
    have ih := isReproduced_of_closesWithin inner (closes.of_contains (.complex (.self inner)))
      (succeeds_of_element_eq found)
    refine isReproduced_of_layout? fun layout known => ?_
    have parts := known
    simp only [layout?] at parts
    obtain ⟨part, sized, _⟩ := Option.bind_eq_some_iff.mp parts
    exact ⟨_, (ih.passedAs found sized).complex known⟩
  | bitfield width, _, _ => by
    cases width with
    | zero => exact isReproduced_of_isSilent rfl
    | succ width => exact ⟨fun found _ => (nomatch found), follows_bitfield width⟩
  | array count item, closes, succeeds => by
    cases count with
    | zero => exact isReproduced_of_isSilent rfl
    | succ count =>
      rw [passing] at succeeds
      obtain ⟨element, found⟩ := succeeds (Nat.succ_pos count)
      have ih := isReproduced_of_closesWithin item
        (closes.of_contains (.item (Nat.succ_pos count) (.self item))) (succeeds_of_element_eq found)
      refine ⟨fun found _ => (nomatch found), follows_of_layout? fun layout known => ?_⟩
      simp only [layout?] at known
      obtain ⟨single, sized, _⟩ := Option.bind_eq_some_iff.mp known
      exact (ih.passedAs found sized).follows_array rfl
  | aggregate .union _ _, _, succeeds => isReproduced_union succeeds
  | aggregate .struct name members, closes, succeeds => by
    refine isReproduced_struct succeeds (follows_of_members members fun member present => ?_)
      (closes name members (.self _))
    exact ⟨closes.of_contains (.member present (.self _)), succeeds_of_member succeeds present⟩

theorem follows_of_members : (members : List Member) →
    (∀ member ∈ members, member.type.ClosesWithin ∧ member.type.passing.Succeeds) →
    ∀ member ∈ members, member.type.Follows
  | [], _ => by simp
  | ⟨_, type, _⟩ :: members, each => by
    obtain ⟨first, others⟩ := List.forall_mem_cons.mp each
    exact List.forall_mem_cons.mpr
      ⟨(isReproduced_of_closesWithin type first.1 first.2).follows, follows_of_members members others⟩

end

/-- The members of a structure inside a type that can be passed follow the cursor. -/
theorem ClosesWithin.follows (closes : type.ClosesWithin) (succeeds : type.passing.Succeeds)
    (contains : type.Contains (aggregate .struct name members)) :
    ∀ member ∈ members, member.type.Follows := by
  refine follows_of_members members fun member present => ?_
  have inside : type.Contains member.type := contains.trans (.member present (.self _))
  exact ⟨closes.of_contains inside, succeeds_of_contains inside succeeds⟩

/-- An aggregate that can be passed has an element. -/
theorem exists_passing_eq_one (succeeds : type.passing.Succeeds)
    (isAggregate : type.unqualified.isAggregate = true) :
    ∃ element, type.passing = .one (.ok element) := by
  rw [← passing_unqualified] at succeeds ⊢
  cases kind : type.unqualified with
  | forward shape name =>
    rw [kind, passing] at succeeds
    · obtain ⟨_, found⟩ := succeeds
      contradiction
    all_goals simp
  | aggregate shape name members =>
    rw [kind] at succeeds
    cases shape <;>
    · rw [passing] at succeeds ⊢
      obtain ⟨element, found⟩ := succeeds
      exact ⟨element, by rw [found]⟩
  | _ => simp [kind, CType.isAggregate] at isAggregate

/-- Nothing but itself is held by a `void`. -/
theorem isVoid_of_contains (contains : type.Contains part) (isVoid : type.unqualified.isVoid = true) :
    part.unqualified.isVoid = true := by
  induction contains with
  | self => exact isVoid
  | const _ ih | atomic _ ih => exact ih isVoid
  | complex | item | member => contradiction

theorem not_isAggregate_of_isVoid (isVoid : type.unqualified.isVoid = true) :
    ¬type.unqualified.isAggregate = true := by
  cases kind : type.unqualified <;> simp_all [CType.isVoid, CType.isAggregate]

/-- An element has the layout of a type, and the elements of a structure fall on the offsets that were
recorded for them. -/
structure Matches (type : CType) (element : Element) : Prop where
  layout?_eq : type.layout? = some element.layout
  offsets_eq : ∀ name members, type.unqualified = .aggregate .struct name members →
    ∃ runs, structRuns name members = .ok runs ∧ element = .record runs.elements ∧
      Element.offsets runs.elements = runs.reverse.map (·.start)

/-- An aggregate of known layout that can be passed has an element that matches it if the structures
inside it have the layouts that their members cover. -/
theorem ClosesWithin.exists_matches (closes : type.ClosesWithin) (succeeds : type.passing.Succeeds)
    (isAggregate : type.unqualified.isAggregate = true) (sized : type.isSized = true) :
    ∃ element, type.element = .ok element ∧ type.Matches element := by
  obtain ⟨element, passing_eq⟩ := exists_passing_eq_one succeeds isAggregate
  obtain ⟨layout, known⟩ := Option.isSome_iff_exists.mp sized
  have found : type.element = .ok element := by rw [CType.element, passing_eq, Passing.element]
  have passed := (isReproduced_of_closesWithin type closes succeeds).passedAs found known
  refine ⟨element, found, passed.layout?_eq, fun name members kind => ?_⟩
  have inner := contains_unqualified type
  rw [kind] at inner
  have follows := closes.follows succeeds inner
  have known : (aggregate .struct name members).layout? = some layout := by
    rw [← kind, layout?_unqualified, known]
  obtain ⟨runs, collected, natural, alsoPassed⟩ :=
    exists_passedAs_struct follows known (closes name members inner follows layout known)
      (structRuns_ne_nil (succeeds_of_contains inner succeeds))
  have same : Passing.one (.ok element) = .one (.ok (.record runs.elements)) := by
    rw [← passing_eq, ← passing_unqualified, kind, alsoPassed.passing_eq]
  cases same
  exact ⟨runs, collected, rfl, natural.offsets_eq⟩

/-! ## Structures that are covered -/

/-- The members with elements cover a structure up to its end, and one of them is aligned as it is. -/
def IsCovered (name : Option String) (members : List Member) : Prop :=
  (aggregate .struct name members).layout? = some (coveredLayout members)

instance (name : Option String) (members : List Member) : Decidable (IsCovered name members) :=
  inferInstanceAs (Decidable (_ = some _))

/-- The aggregates that a type holds match their elements. -/
def MatchesWithin (type : CType) : Prop :=
  ∀ part, type.Contains part → part.unqualified.isAggregate = true →
    ∃ element, part.element = .ok element ∧ part.Matches element

/-- The members of an ordinary structure all have elements. -/
theorem IsOrdinary.closesWithin (ordinary : type.IsOrdinary) : type.ClosesWithin := by
  intro name members contains follows layout known
  refine coveredLayout_of_loud follows (fun member present => ?_) known
  have inside : type.Contains member.type.unqualified :=
    contains.trans (.member present (contains_unqualified member.type))
  rw [Bool.eq_false_iff]
  intro silent
  unfold isSilent at silent
  split at silent
  next kind => exact ordinary.noGap (kind ▸ inside)
  next item kind => exact ordinary.noTail item (kind ▸ inside)
  next => contradiction

theorem MatchesWithin.closesWithin (same : type.MatchesWithin) : type.ClosesWithin := by
  intro name members contains follows layout known
  obtain ⟨element, _, layout?_eq, collects⟩ := same _ contains rfl
  obtain ⟨runs, collected, rfl, _⟩ := collects name members rfl
  obtain ⟨_, alsoCollected, collects⟩ := exists_collects follows known
  cases collected.symm.trans alsoCollected
  rw [← collects.layout_eq]
  exact Option.some.inj (layout?_eq.symm.trans known)

/-- An aggregate that can be passed has a layout, if it is not a structure that lacks one. -/
theorem isSized_of_succeeds (succeeds : type.passing.Succeeds)
    (isAggregate : type.unqualified.isAggregate = true)
    (sized : ∀ name members, type.unqualified = aggregate .struct name members →
      (aggregate .struct name members).isSized = true) : type.isSized = true := by
  obtain ⟨element, passing_eq⟩ := exists_passing_eq_one succeeds isAggregate
  rw [isSized, ← layout?_unqualified, ← isSized]
  rw [← passing_unqualified] at passing_eq
  cases kind : type.unqualified with
  | forward shape name =>
    rw [kind, passing] at passing_eq
    · simp at passing_eq
    all_goals simp
  | aggregate shape name members =>
    cases shape with
    | struct => exact sized name members kind
    | union =>
      rw [kind, passing, unionElement] at passing_eq
      rw [isSized]
      cases known : (aggregate .union name members).layout? with
      | none =>
        rw [known] at passing_eq
        simp at passing_eq
      | some layout => rfl
  | _ => simp [kind, CType.isAggregate] at isAggregate

/-- The aggregates inside a type that can be passed match their elements exactly if the structures inside
it are covered. -/
theorem matchesWithin_iff (succeeds : type.passing.Succeeds) :
    type.MatchesWithin ↔
      ∀ name members, type.Contains (aggregate .struct name members) → IsCovered name members := by
  constructor
  · intro same name members contains
    have closes := same.closesWithin
    obtain ⟨element, _, layout?_eq, _⟩ := same _ contains rfl
    have covered := closes name members contains (closes.follows succeeds contains) _ layout?_eq
    rw [IsCovered, covered, layout?_eq]
  · intro covered part contains isAggregate
    have closes : type.ClosesWithin := fun name members inside _ layout known =>
      Option.some.inj ((covered name members inside).symm.trans known)
    have passed := succeeds_of_contains contains succeeds
    refine (closes.of_contains contains).exists_matches passed isAggregate ?_
    refine isSized_of_succeeds passed isAggregate fun name members kind => ?_
    have inside := contains_unqualified part
    rw [kind] at inside
    exact Option.isSome_of_eq_some (covered name members (contains.trans inside))

/-- There is no aggregate inside a `void`. -/
theorem matchesWithin_iff_of_isVoid (isVoid : type.unqualified.isVoid = true) :
    type.MatchesWithin ↔
      ∀ name members, type.Contains (aggregate .struct name members) → IsCovered name members := by
  constructor
  · intro _ name members inside
    exact nomatch isVoid_of_contains inside isVoid
  · intro _ part inside isAggregate
    exact absurd isAggregate (not_isAggregate_of_isVoid (isVoid_of_contains inside isVoid))

end CType

theorem Descriptor.Describes.succeeds_or_isVoid {signature : Signature} {descriptor : Descriptor}
    {type part : CType} {element : Element} (described : descriptor.Describes signature)
    (present : (type, element) ∈ descriptor.passed signature) (contains : type.Contains part) :
    part.passing.Succeeds ∨ part.unqualified.isVoid = true := by
  rcases described.element_eq present with found | isVoid
  · exact .inl (CType.succeeds_of_contains contains (CType.succeeds_of_element_eq found))
  · exact .inr (CType.isVoid_of_contains contains isVoid)

/-- Verification compares the layouts of the aggregates that a signature names, and no others. The
aggregates inside a part of a parameter match their elements, verified or not, exactly if the structures
inside the part are covered by their members with elements. In a parameter of known layout, so do the
aggregates that hold no bitfield of no width and no array of no elements. -/
theorem verified_layouts (signature : Signature) (descriptor : Descriptor) :
    (Descriptor.prepare true signature = .ok descriptor ↔
      Descriptor.prepare false signature = .ok descriptor ∧
        ∀ pair ∈ descriptor.passed signature,
          pair.1.unqualified.isAggregate = true → pair.1.layout? = some pair.2.layout) ∧
    (∀ verifyLayouts, Descriptor.prepare verifyLayouts signature = .ok descriptor →
      ∀ pair ∈ descriptor.passed signature, ∀ part, pair.1.Contains part →
        (part.MatchesWithin ↔ ∀ name members,
          part.Contains (.aggregate .struct name members) → CType.IsCovered name members)) ∧
    ∀ verifyLayouts, Descriptor.prepare verifyLayouts signature = .ok descriptor →
      ∀ pair ∈ descriptor.passed signature, pair.1.isSized = true →
        ∀ part, pair.1.Contains part → part.unqualified.isAggregate = true → part.IsOrdinary →
          ∃ element, part.element = .ok element ∧ part.Matches element := by
  refine ⟨by simp [Descriptor.prepare_eq_ok_iff], ?_, ?_⟩
  · rintro verifyLayouts prepared ⟨type, element⟩ present part contains
    have described := (Descriptor.prepare_eq_ok_iff.mp prepared).1
    rcases described.succeeds_or_isVoid present contains with succeeds | isVoid
    · exact CType.matchesWithin_iff succeeds
    · exact CType.matchesWithin_iff_of_isVoid isVoid
  · rintro verifyLayouts prepared ⟨type, element⟩ present sized part contains isAggregate ordinary
    have described := (Descriptor.prepare_eq_ok_iff.mp prepared).1
    rcases described.succeeds_or_isVoid present contains with succeeds | isVoid
    · exact ordinary.closesWithin.exists_matches succeeds isAggregate
        (CType.isSized_of_contains contains sized)
    · exact absurd isAggregate (CType.not_isAggregate_of_isVoid isVoid)

/-- A bitfield of no width at the end makes a structure longer than its elements. -/
example : ¬CType.IsCovered none [.ofType none (.scalar .char), .ofType none (.bitfield 0)] := by decide

/-- A pair of a character and three bits. -/
def flaggedType : CType :=
  .aggregate .struct none [.ofType none (.scalar .char), .ofType none (.bitfield 3)]

/-- A function of a complex number whose parts are such pairs. -/
def complexSignature : Signature := ⟨⟨.none, .void⟩, [⟨.none, .wrapped .complex flaggedType⟩]⟩

theorem verified_layouts_complex :
    (∃ descriptor, Descriptor.prepare true complexSignature = .ok descriptor) ∧
      CType.Contains (.wrapped .complex flaggedType) flaggedType ∧ flaggedType.IsOrdinary ∧
        ∃ element, flaggedType.element = .ok element ∧ flaggedType.Matches element := by
  have prepared : Descriptor.prepare true complexSignature =
      .ok ⟨[.record [.record [.integer false 4], .record [.integer false 4]]], .void, .empty, false⟩ := by
    cbv
  have contains : CType.Contains (.wrapped .complex flaggedType) flaggedType := .complex (.self _)
  have members : ∀ part, flaggedType.Contains part →
      part = flaggedType ∨ part = .scalar .char ∨ part = .bitfield 3 := by
    rintro part (_ | _ | _ | _ | _ | ⟨present, inside⟩)
    · exact .inl rfl
    · rcases List.mem_pair.mp present with rfl | rfl <;> cases inside
      · exact .inr (.inl rfl)
      · exact .inr (.inr rfl)
  have ordinary : flaggedType.IsOrdinary :=
    ⟨fun inside => by simpa [flaggedType] using members _ inside,
      fun item inside => by simpa [flaggedType] using members _ inside⟩
  refine ⟨⟨_, prepared⟩, contains, ordinary, ?_⟩
  exact (verified_layouts _ _).2.2 true prepared (.wrapped .complex flaggedType, _)
    (List.mem_cons_self ..) (by decide) _ contains rfl ordinary

/-- A character, and a bitfield of no width that makes it as large as an integer. -/
def gappedType : CType :=
  .aggregate .struct (some "T") [.ofType none (.scalar .char), .ofType none (.bitfield 0)]

/-- Members before one that is aligned more strictly, which hides how large they are. -/
def outerType : CType :=
  .aggregate .struct (some "O")
    [.ofType none gappedType, .ofType none (.scalar .char), .ofType none (.scalar .longLong)]

/-- The layout of an aggregate inside another one is not verified. -/
theorem inner_layout_not_verified :
    ¬∀ signature descriptor, Descriptor.prepare true signature = .ok descriptor →
      ∀ pair ∈ descriptor.passed signature, ∀ part, pair.1.Contains part →
        part.unqualified.isAggregate = true → ∀ element, part.element = .ok element →
          part.layout? = some element.layout := by
  intro verified
  have prepared : Descriptor.prepare true ⟨⟨.none, .void⟩, [⟨.none, outerType⟩]⟩ =
      .ok ⟨[.record [.record [.integer true 1], .integer true 1, .integer true 8]], .void, .empty,
        false⟩ := by cbv
  have contains : outerType.Contains gappedType := .member (List.mem_cons_self ..) (.self _)
  have found : gappedType.element = .ok (.record [.integer true 1]) := by cbv
  have same := verified _ _ prepared (outerType, _) (List.mem_cons_self ..) _ contains rfl _ found
  have different : gappedType.layout? ≠ some (Element.record [.integer true 1]).layout := by decide
  exact different same

end ForeignCall
