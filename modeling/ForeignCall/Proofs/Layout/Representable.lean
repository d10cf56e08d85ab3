import ForeignCall.Proofs.Layout.Exact

/-! # Layouts that fit

The layouts that types have are their exact ones (`CType.layout?_agrees`): a number that does not fit an
address makes the layout unknown, with all later positions, and never a smaller number. The other way
round, a layout is given up only for one of the reasons of `CType.IsUnrepresentable`, found in the type
or in something that it holds by value (`CType.exists_unrepresentable`).
-/

namespace ForeignCall

namespace CType

variable {type component : CType} {layout : Layout}

mutual

/-- A known layout is the exact one. -/
theorem layout?_agrees : (type : CType) → AgreesWith type.layout? type.exactLayout?
  | unknown | forward _ _ => .none _
  | void | scalar _ | object _ _ | classRef | block _ | wrapped .pointer _ | bitfield _ => by
    simp only [layout?, exactLayout?]
    exact .refl _
  | wrapped .const inner | wrapped .atomic inner => by
    simp only [layout?, exactLayout?]
    exact layout?_agrees inner
  | wrapped .complex inner => by
    simp only [layout?, exactLayout?]
    exact (layout?_agrees inner).bind_map fun _ _ known => (Layout.repeated?_eq_some_iff.mp known).1
  | wrapped .vector inner => by
    simp only [layout?, exactLayout?]
    exact (layout?_agrees inner).bind_map fun _ _ known => (Layout.vector?_eq_some_iff.mp known).1
  | array _ element => by
    simp only [layout?, exactLayout?]
    exact (layout?_agrees element).bind_map fun _ _ known => (Layout.repeated?_eq_some_iff.mp known).1
  | aggregate shape _ members => by
    simp only [layout?, exactLayout?]
    exact (Placement.ofShape_agrees shape (footprints_agree members)).2

theorem footprints_agree : (members : List Member) →
    List.Forall₂ Footprint.AgreesWith (footprints members) (exactFootprints members)
  | [] => .nil
  | ⟨_, type, _⟩ :: members =>
    .cons (Footprint.agrees_ofType type (layout?_agrees type)) (footprints_agree members)

end

/-- A known size fits an address. -/
theorem size_lt_of_layout? (type : CType) (known : type.layout? = some layout) :
    layout.size < addressLimit := by
  fun_induction unqualified type with
  | case1 inner ih => exact ih (by simpa only [layout?] using known)
  | case2 inner ih => exact ih (by simpa only [layout?] using known)
  | case3 type notConst notAtomic =>
    cases type with
    | unknown | forward => simp [layout?] at known
    | void =>
      cases known
      decide
    | scalar kind =>
      cases known
      cases kind <;> decide
    | object | classRef | block =>
      simp only [layout?, Option.some.injEq] at known
      subst known
      decide
    | wrapped wrapper inner =>
      cases wrapper with
      | const => exact absurd rfl (notConst inner)
      | atomic => exact absurd rfl (notAtomic inner)
      | pointer =>
        simp only [layout?, Option.some.injEq] at known
        subst known
        decide
      | complex =>
        simp only [layout?] at known
        obtain ⟨_, _, repeated⟩ := Option.bind_eq_some_iff.mp known
        exact (Layout.repeated?_eq_some_iff.mp repeated).2
      | vector =>
        simp only [layout?] at known
        obtain ⟨_, _, vector⟩ := Option.bind_eq_some_iff.mp known
        exact (Layout.vector?_eq_some_iff.mp vector).2
    | bitfield width =>
      simp only [layout?] at known
      obtain ⟨unit, storage, rfl⟩ := Option.map_eq_some_iff.mp known
      have alignment := (Cursor.storageUnit?_spec storage).1
      have small : unit ≤ 16 := by
        rw [IsAlignment.cases_iff] at alignment
        omega
      exact Nat.lt_of_le_of_lt small (by decide)
    | array count element =>
      simp only [layout?] at known
      obtain ⟨_, _, repeated⟩ := Option.bind_eq_some_iff.mp known
      exact (Layout.repeated?_eq_some_iff.mp repeated).2
    | aggregate shape name members =>
      simp only [layout?] at known
      exact Placement.size_lt_of_ofShape known

/-! ## Components -/

/-- What a type holds by value, itself included: the inside of a wrapper that is no pointer, the
element of an array of any count, the members of structures and unions. -/
inductive HasComponent : CType → CType → Prop
  | self (type : CType) : HasComponent type type
  | wrapped {wrapper : Wrapper} {inner component : CType} (held : wrapper ≠ .pointer)
    (inside : HasComponent inner component) : HasComponent (.wrapped wrapper inner) component
  | element {count : Nat} {element component : CType} (inside : HasComponent element component) :
    HasComponent (.array count element) component
  | member {shape : Shape} {name : Option String} {members : List Member} {member : Member}
    {component : CType} (present : member ∈ members) (inside : HasComponent member.type component) :
    HasComponent (.aggregate shape name members) component

/-- Why a type has no layout of its own. -/
inductive IsUnrepresentable : CType → Prop
  | unknown : IsUnrepresentable .unknown
  | incomplete (shape : Shape) (name : Option String) : IsUnrepresentable (.forward shape name)
  | wide {width : Nat} (wide : 64 < width) : IsUnrepresentable (.bitfield width)
  | large {type : CType} {layout : Layout} (exact : type.exactLayout? = some layout)
    (large : addressLimit ≤ layout.size) : IsUnrepresentable type

theorem storageUnit?_eq_none_iff {width : Nat} : storageUnit? width = none ↔ 64 < width := by
  unfold storageUnit?
  split
  next => simp; omega
  next => simp

theorem IsUnrepresentable.layout?_eq_none (reason : type.IsUnrepresentable) : type.layout? = none := by
  cases reason with
  | unknown | incomplete => simp [layout?]
  | wide wide => simp [layout?, storageUnit?_eq_none_iff.mpr wide]
  | large exact large =>
    cases known : type.layout? with
    | none => rfl
    | some layout =>
      have same := (layout?_agrees type layout known).symm.trans exact
      cases same
      exact absurd (size_lt_of_layout? type known) (Nat.not_lt.mpr large)

/-- A type of known layout holds only types of known layout. -/
theorem isSized_of_hasComponent (holds : type.HasComponent component) (sized : type.isSized = true) :
    component.isSized = true := by
  induction holds with
  | self => exact sized
  | @wrapped wrapper inner component held _ ih =>
    refine ih ?_
    cases wrapper with
    | pointer => exact absurd rfl held
    | const | atomic => simpa only [isSized, layout?] using sized
    | complex | vector =>
      simp only [isSized, layout?] at sized ⊢
      exact Option.isSome_of_isSome_bind sized
  | element _ ih =>
    refine ih ?_
    simp only [isSized, layout?] at sized ⊢
    exact Option.isSome_of_isSome_bind sized
  | member present _ ih => exact ih (isSized_of_member sized present)

theorem exactLayout?_of_isSized (sized : type.isSized = true) : type.exactLayout? = type.layout? := by
  obtain ⟨layout, known⟩ := Option.isSome_iff_exists.mp sized
  rw [known]
  exact layout?_agrees type layout known

theorem exactFootprints_of_isSized {members : List Member}
    (sized : ∀ member ∈ members, member.type.isSized = true) :
    exactFootprints members = footprints members := by
  induction members with
  | nil => rfl
  | cons member members ih =>
    obtain ⟨first, others⟩ := List.forall_mem_cons.mp sized
    cases member
    simp only [exactFootprints, footprints, exactLayout?_of_isSized first, ih others]

/-- A type without a layout is too large if its exact size would do. -/
theorem isUnrepresentable_of_exact (absent : type.layout? = none)
    (exact : type.exactLayout? = some layout)
    (fitting : layout.size < addressLimit → type.layout? = some layout) : type.IsUnrepresentable := by
  refine .large exact (Nat.le_of_not_lt fun fits => ?_)
  have found := fitting fits
  rw [absent] at found
  contradiction

/-- A layout that is computed from that of one part is given up in the part or for its own size. -/
theorem exists_unrepresentable_of_built {inner : CType} {build : Layout → Layout}
    (holds : ∀ component, inner.HasComponent component → type.HasComponent component)
    (exact : type.exactLayout? = inner.exactLayout?.map build)
    (fitting : ∀ single, inner.layout? = some single → (build single).size < addressLimit →
      type.layout? = some (build single))
    (deeper : inner.layout? = none →
      ∃ component, inner.HasComponent component ∧ component.IsUnrepresentable)
    (absent : type.layout? = none) :
    ∃ component, type.HasComponent component ∧ component.IsUnrepresentable := by
  cases known : inner.layout? with
  | none =>
    obtain ⟨component, inside, reason⟩ := deeper known
    exact ⟨component, holds component inside, reason⟩
  | some single =>
    refine ⟨type, .self type, isUnrepresentable_of_exact absent ?_ (fitting single known)⟩
    rw [exact, layout?_agrees inner single known, Option.map_some]

/-- Members that all have layouts make an aggregate whose exact layout is known, and which has that
layout if it is not too large. -/
theorem exists_exactLayout?_aggregate (shape : Shape) (name : Option String) {members : List Member}
    (sized : ∀ member ∈ members, member.type.isSized = true) :
    ∃ layout, (aggregate shape name members).exactLayout? = some layout ∧
      (layout.size < addressLimit → (aggregate shape name members).layout? = some layout) := by
  have footprintsSized : ∀ footprint ∈ footprints members, footprint.layout?.isSome := by
    rw [footprints_eq_map]
    intro footprint present
    obtain ⟨member, isMember, rfl⟩ := List.mem_map.mp present
    rw [layout?_footprint]
    exact sized member isMember
  obtain ⟨layout, exact⟩ := Placement.exists_exactOfShape shape footprintsSized
  refine ⟨layout, ?_, fun fits => ?_⟩
  · rw [exactLayout?, exactFootprints_of_isSized sized, exact]
  · rw [layout?]
    exact Placement.ofShape_of_exactOfShape (isSound_of_footprints members) exact fits

mutual

/-- A layout is given up for a reason: in the type itself, if its parts have layouts, and otherwise in
a part. -/
theorem exists_unrepresentable : (type : CType) → type.layout? = none →
    ∃ component, type.HasComponent component ∧ component.IsUnrepresentable
  | unknown, _ => ⟨_, .self _, .unknown⟩
  | forward shape name, _ => ⟨_, .self _, .incomplete shape name⟩
  | void, absent | scalar _, absent | object _ _, absent | classRef, absent | block _, absent
  | wrapped .pointer _, absent => by simp [layout?] at absent
  | wrapped .const inner, absent | wrapped .atomic inner, absent => by
    rw [layout?] at absent
    obtain ⟨component, inside, reason⟩ := exists_unrepresentable inner absent
    exact ⟨component, .wrapped (by decide) inside, reason⟩
  | wrapped .complex inner, absent =>
    exists_unrepresentable_of_built (fun _ => .wrapped (by decide)) (by rw [exactLayout?])
      (fun single known fits => by
        rw [layout?, known]
        exact Layout.repeated?_eq_some_iff.mpr ⟨rfl, fits⟩)
      (exists_unrepresentable inner) absent
  | wrapped .vector inner, absent =>
    exists_unrepresentable_of_built (fun _ => .wrapped (by decide)) (by rw [exactLayout?])
      (fun single known fits => by
        rw [layout?, known]
        exact Layout.vector?_eq_some_iff.mpr ⟨rfl, fits⟩)
      (exists_unrepresentable inner) absent
  | bitfield width, absent => by
    rw [layout?, Option.map_eq_none_iff] at absent
    exact ⟨_, .self _, .wide (storageUnit?_eq_none_iff.mp absent)⟩
  | array count element, absent =>
    exists_unrepresentable_of_built (fun _ => .element) (by rw [exactLayout?])
      (fun single known fits => by
        rw [layout?, known]
        exact Layout.repeated?_eq_some_iff.mpr ⟨rfl, fits⟩)
      (exists_unrepresentable element) absent
  | aggregate shape name members, absent => by
    by_cases sized : ∀ member ∈ members, member.type.isSized = true
    · obtain ⟨layout, exact, fitting⟩ := exists_exactLayout?_aggregate shape name sized
      exact ⟨_, .self _, isUnrepresentable_of_exact absent exact fitting⟩
    · obtain ⟨member, present, unsized⟩ : ∃ member ∈ members, ¬member.type.isSized = true := by
        simpa using sized
      have unknown : member.type.layout? = none := by simpa [isSized] using unsized
      obtain ⟨component, inside, reason⟩ := exists_unrepresentable_of_mem members member present unknown
      exact ⟨component, .member present inside, reason⟩

theorem exists_unrepresentable_of_mem : (members : List Member) → ∀ member ∈ members,
    member.type.layout? = none →
      ∃ component, member.type.HasComponent component ∧ component.IsUnrepresentable
  | [], _, present, _ => nomatch present
  | ⟨name, type, retention⟩ :: members, member, present, absent => by
    rcases List.mem_cons.mp present with rfl | present
    · exact exists_unrepresentable type absent
    · exact exists_unrepresentable_of_mem members member present absent

end

/-- A known position of a field is the exact one. -/
theorem exactPosition?_of_fieldAt? {index : Nat} {field : Field} {position : Position}
    (isField : type.fieldAt? index = some field) (isPosition : field.position = some position) :
    type.exactPosition? index = some position := by
  cases type with
  | aggregate shape name members =>
    obtain ⟨member, found, _, atIndex, rfl⟩ := List.getElem?_zipWith_eq_some.mp isField
    cases isPosition
    have agree := (Placement.ofShape_agrees shape (footprints_agree members)).1
    obtain ⟨inside, same⟩ := List.getElem?_eq_some_iff.mp atIndex
    have inside' := agree.length_eq ▸ inside
    have exact := agree.get inside inside' position (by simp [same])
    simp only [exactPosition?, List.getElem?_eq_getElem inside', Option.join_some]
    exact exact
  | _ => simp [fieldAt?, fields, fields?] at isField

/-- Layout arithmetic never wraps. A layout that is known, and every known position of a field, is the
one that the same rules give over all natural numbers; and a layout is unknown exactly if something
that the type holds by value is unknown, incomplete, a bitfield wider than any storage unit, or too
large for an address. -/
theorem layouts_exact (type : CType) :
    (∀ layout, type.layout? = some layout → type.exactLayout? = some layout) ∧
    (∀ index field position, type.fieldAt? index = some field → field.position = some position →
      type.exactPosition? index = some position) ∧
    (type.layout? = none ↔
      ∃ component, type.HasComponent component ∧ component.IsUnrepresentable) := by
  refine ⟨layout?_agrees type, fun _ _ _ => exactPosition?_of_fieldAt?, exists_unrepresentable type, ?_⟩
  rintro ⟨component, holds, reason⟩
  cases known : type.layout? with
  | none => rfl
  | some layout =>
    have sized := isSized_of_hasComponent holds (by simp [isSized, known])
    simp [isSized, reason.layout?_eq_none] at sized

/-- A structure in which an array ends at the last address, and the member after it has none. -/
def overlong : CType :=
  aggregate .struct none
    [.ofType none (scalar .char), .ofType none (array (addressLimit - 2) (scalar .char)),
      .ofType none (scalar .int)]

/-- Its first fields are where they belong, and its size has no address. -/
theorem layouts_exact_overlong :
    overlong.exactPosition? 1 = some ⟨1, none⟩ ∧ overlong.layout? = none ∧
      ∃ component, overlong.HasComponent component ∧ component.IsUnrepresentable := by
  have absent : overlong.layout? = none := by decide
  obtain ⟨_, positions, unknown⟩ := layouts_exact overlong
  exact ⟨positions 1 _ _ rfl rfl, absent, unknown.mp absent⟩

end CType

end ForeignCall
