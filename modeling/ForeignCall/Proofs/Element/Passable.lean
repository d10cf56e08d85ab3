import ForeignCall.Call.Descriptor
import ForeignCall.Proofs.Element.Members

/-! # Passable types

The types that a call can pass by value (`CType.IsPassable`): scalars up to 64 bits and floating-point
numbers, references and pointers, `const`, atomic and complex versions of these, unions that are not
empty and not aligned beyond 8 bytes, and structures of such types, arrays of them and bitfields.
Each is passed as an element of the type's own layout (`CType.IsPassable.exists_passedAs`), so a
signature of passable types can be prepared, also with its layouts verified
(`passable_types_reproduced`).
-/

namespace ForeignCall

namespace Element

variable {element : Element}

/-- Equal elements one after the other leave no gap. -/
theorem layoutFrom_replicate (sound : element.layout.IsSound) (count : Nat) :
    layoutFrom .empty (List.replicate (count + 1) element) =
      ⟨element.layout.size * (count + 1), element.layout.alignment⟩ := by
  have positive := sound.alignment.pos
  induction count with
  | zero =>
    have start : roundUp 0 element.layout.alignment = 0 := roundUp_of_dvd positive (Nat.dvd_zero _)
    change extendLayout .empty element.layout = _
    rw [extendLayout, Layout.empty, start, Nat.max_eq_right positive, Nat.zero_add, Nat.mul_one]
  | succ count ih =>
    have next : roundUp (element.layout.size * (count + 1)) element.layout.alignment =
        element.layout.size * (count + 1) :=
      roundUp_of_dvd positive (Nat.dvd_mul_right_of_dvd sound.dvd_size (count + 1))
    rw [List.replicate_succ', layoutFrom_append, ih]
    change extendLayout _ element.layout = _
    rw [extendLayout, next, Nat.max_self, ← Nat.mul_succ]

theorem layout_replicate (sound : element.layout.IsSound) (count : Nat) :
    (record (List.replicate (count + 1) element)).layout =
      ⟨element.layout.size * (count + 1), element.layout.alignment⟩ := by
  rw [layout, layoutFrom_replicate sound, closeLayout, roundUp_of_dvd sound.alignment.pos]
  exact Nat.dvd_mul_right_of_dvd sound.dvd_size (count + 1)

end Element

namespace CType

mutual

/-- A type that a call can pass by value. -/
inductive IsPassable : CType → Prop where
  | scalar {kind : Scalar} (narrow : kind ≠ .int128 ∧ kind ≠ .unsignedInt128) :
    IsPassable (.scalar kind)
  | object (className : Option String) (protocols : List String) :
    IsPassable (.object className protocols)
  | classRef : IsPassable .classRef
  | block (signature : Option Signature) : IsPassable (.block signature)
  | pointer (pointee : CType) : IsPassable (.wrapped .pointer pointee)
  | const {inner : CType} (passable : IsPassable inner) : IsPassable (.wrapped .const inner)
  | atomic {inner : CType} (passable : IsPassable inner) : IsPassable (.wrapped .atomic inner)
  | complex {inner : CType} (passable : IsPassable inner) : IsPassable (.wrapped .complex inner)
  | union {name : Option String} {members : List Member} {layout : Layout}
    (known : (aggregate .union name members).layout? = some layout) (positive : 0 < layout.size)
    (aligned : layout.alignment ≤ 8) : IsPassable (.aggregate .union name members)
  | struct {name : Option String} {members : List Member} (nonempty : members ≠ [])
    (passable : ∀ member ∈ members, IsPassableMember member.type) :
    IsPassable (.aggregate .struct name members)

inductive IsPassableMember : CType → Prop where
  | bitfield {width : Nat} (positive : 0 < width) (fitting : width ≤ 64) :
    IsPassableMember (.bitfield width)
  | array {count : Nat} {item : CType} (positive : 0 < count) (passable : IsPassable item) :
    IsPassableMember (.array count item)
  | plain {type : CType} (passable : IsPassable type) : IsPassableMember type

end

variable {type inner : CType} {element : Element} {layout : Layout}
variable {name : Option String} {members : List Member}

theorem passedAs_pointer (passing_eq : type.passing = .one (.ok .pointer))
    (layout?_eq : type.layout? = some .pointer) : type.PassedAs .pointer :=
  ⟨passing_eq, layout?_eq, by decide⟩

theorem passedAs_scalar {kind : Scalar} (narrow : kind ≠ .int128 ∧ kind ≠ .unsignedInt128) :
    ∃ element, (CType.scalar kind).PassedAs element := by
  obtain ⟨element, element_eq, layout_eq⟩ : ∃ element, kind.element? = some element ∧
      element.layout = ⟨kind.size, kind.alignment⟩ := by
    cases kind <;> first | exact ⟨_, rfl, rfl⟩ | simp at narrow
  refine ⟨element, by rw [passing, element_eq], by rw [layout?, layout_eq], ?_⟩
  rw [layout_eq]
  exact kind.size_pos

theorem PassedAs.complex (passed : inner.PassedAs element)
    (known : (wrapped .complex inner).layout? = some layout) :
    (wrapped .complex inner).PassedAs (.record [element, element]) := by
  have layout_eq : (Element.record [element, element]).layout =
      ⟨element.layout.size * 2, element.layout.alignment⟩ :=
    Element.layout_replicate passed.isSound 1
  refine ⟨?_, ?_, ?_⟩
  · rw [passing, passed.passing_eq]
    rfl
  · rw [layout_eq, known]
    simp only [layout?, passed.layout?_eq, Option.bind_some] at known
    obtain ⟨size, fits, rfl⟩ := Option.map_eq_some_iff.mp known
    obtain ⟨_, rfl⟩ := fits?_eq_some_iff.mp fits
    rfl
  · rw [layout_eq]
    have positive := passed.positive
    change 0 < element.layout.size * 2
    omega

/-! ## Unions -/

theorem footprint_of_scalar? {kind : Scalar} (isScalar : type.unqualified.scalar? = some kind) :
    type.footprint = .bytes ⟨kind.size, kind.alignment⟩ := by
  have unqualified_eq : type.unqualified = .scalar kind := by
    unfold scalar? at isScalar
    split at isScalar
    next same =>
      cases isScalar
      exact same
    next => contradiction
  have known : type.layout? = some ⟨kind.size, kind.alignment⟩ := by
    rw [← layout?_unqualified, unqualified_eq, layout?]
  rw [footprint, known]
  cases type <;> first | rfl | simp [unqualified] at unqualified_eq

/-- Members of the largest layout so far leave it as it is. -/
theorem joinLayouts?_of_forall {single : Layout}
    (each : ∀ member ∈ members, member.type.footprint = .bytes single) :
    Placement.joinLayouts? single (footprints members) = some single := by
  rw [footprints_eq_map]
  induction members with
  | nil => rfl
  | cons member members ih =>
    rw [List.map_cons, each member (List.mem_cons_self ..)]
    simp only [Placement.joinLayouts?, Footprint.layout?, Option.bind_some, Nat.max_self]
    exact ih fun other present => each other (List.mem_cons_of_mem _ present)

/-- A union of members of one layout has that layout. -/
theorem layout?_union_of_forall {single : Layout} (sound : single.IsSound) (nonempty : members ≠ [])
    (each : ∀ member ∈ members, member.type.footprint = .bytes single)
    (known : (aggregate .union name members).layout? = some layout) : layout = single := by
  obtain ⟨member, members, rfl⟩ := List.exists_cons_of_ne_nil nonempty
  have join : Placement.joinLayouts? .empty (footprints (member :: members)) = some single := by
    rw [footprints_eq_map, List.map_cons, each member (List.mem_cons_self ..), ← footprints_eq_map]
    simp only [Placement.joinLayouts?, Footprint.layout?, Option.bind_some, Layout.empty,
      Nat.zero_max, Nat.max_eq_right sound.alignment.pos]
    exact joinLayouts?_of_forall fun other present => each other (List.mem_cons_of_mem _ present)
  simp only [layout?, Placement.ofShape, Placement.ofUnion, join, Option.bind_some] at known
  obtain ⟨size, fits, rfl⟩ := Option.map_eq_some_iff.mp known
  obtain ⟨_, rfl⟩ := fits?_eq_some_iff.mp fits
  rw [roundUp_of_dvd sound.alignment.pos sound.dvd_size]

/-- Members that are all of one scalar kind give a union the layout of that kind. -/
theorem layout?_union_of_scalar {kind : Scalar}
    (known : (aggregate .union name members).layout? = some layout) (nonempty : members ≠ [])
    (each : members.all fun member => member.type.unqualified.scalar? = some kind) :
    layout = ⟨kind.size, kind.alignment⟩ := by
  refine layout?_union_of_forall (Layout.isSound_scalar kind) nonempty (fun member present => ?_)
    known
  exact footprint_of_scalar? (by simpa using List.all_eq_true.mp each member present)

/-- A union that is passed in units is aligned at most to eight bytes. -/
theorem alignment_le_of_unionUnit {unit : Element × Nat}
    (known : (aggregate .union name members).layout? = some layout) (nonempty : members ≠ [])
    (found : unionUnit? members layout = some unit) : layout.alignment ≤ 8 := by
  unfold unionUnit? at found
  dsimp only at found
  split at found
  next floats =>
    rw [layout?_union_of_scalar known nonempty floats]
    decide
  next =>
    split at found
    next doubles =>
      rw [layout?_union_of_scalar known nonempty doubles]
      decide
    next =>
      split at found
      next aligned =>
        simp only [List.mem_cons, List.not_mem_nil, or_false] at aligned
        omega
      next => contradiction

/-- The unit of a union is as large as its own alignment, which is the alignment of the union. -/
theorem exists_unionUnit (known : (aggregate .union name members).layout? = some layout)
    (nonempty : members ≠ []) (aligned : layout.alignment ≤ 8) :
    ∃ unit, unionUnit? members layout = some (unit, layout.alignment) ∧
      unit.layout = ⟨layout.alignment, layout.alignment⟩ := by
  have alignment := (isSound_of_layout? _ known).alignment
  rw [IsAlignment.cases_iff] at alignment
  unfold unionUnit?
  dsimp only
  split
  next floats =>
    rw [layout?_union_of_scalar known nonempty floats]
    exact ⟨.floating 4, rfl, rfl⟩
  next =>
    split
    next doubles =>
      rw [layout?_union_of_scalar known nonempty doubles]
      exact ⟨.floating 8, rfl, rfl⟩
    next =>
      rw [if_pos (by simp only [List.mem_cons, List.not_mem_nil, or_false]; omega)]
      exact ⟨.integer false layout.alignment, rfl, rfl⟩

/-- A union is passed as a structure of units that cover it. -/
theorem passedAs_union (known : (aggregate .union name members).layout? = some layout)
    (positive : 0 < layout.size) (aligned : layout.alignment ≤ 8) :
    ∃ element, (aggregate .union name members).PassedAs element := by
  have nonempty : members ≠ [] := by
    rintro rfl
    have empty : (aggregate .union name []).layout? = some .empty := by
      simp only [layout?]
      decide
    rw [empty] at known
    cases known
    exact absurd positive (by decide)
  obtain ⟨unit, unit_eq, unit_layout⟩ := exists_unionUnit known nonempty aligned
  have sound := isSound_of_layout? _ known
  obtain ⟨count, size_eq⟩ := sound.dvd_size
  obtain ⟨count, rfl⟩ : ∃ units, count = units + 1 := by
    refine Nat.exists_eq_succ_of_ne_zero ?_
    rintro rfl
    omega
  have unit_sound : unit.layout.IsSound := by
    rw [unit_layout]
    exact ⟨sound.alignment, Nat.dvd_refl _⟩
  have layout_eq : (Element.record (List.replicate (count + 1) unit)).layout = layout := by
    rw [Element.layout_replicate unit_sound, unit_layout, ← size_eq]
  have count_eq : layout.size / layout.alignment = count + 1 := by
    rw [size_eq, Nat.mul_div_cancel_left _ sound.alignment.pos]
  refine ⟨_, ?_, by rw [known, layout_eq], by rwa [layout_eq]⟩
  have element_eq : unionElement (aggregate .union name members) members =
      .ok (.record (List.replicate (count + 1) unit)) := by
    have isEmpty_eq : (members.isEmpty || layout.size = 0) = false := by
      simp [nonempty, Nat.ne_of_gt positive]
    simp only [unionElement, known, isEmpty_eq, unit_eq, count_eq]
    rfl
  rw [passing, element_eq]

/-! ## All passable types -/

theorem IsPassable.loud {type : CType} : type.IsPassable → type.isSilent = false
  | .const passable => passable.loud
  | .atomic passable => passable.loud
  | .scalar _ | .object _ _ | .classRef | .block _ | .pointer _ | .complex _ | .union _ _ _
  | .struct _ _ => rfl

theorem IsPassableMember.loud {type : CType} (passable : type.IsPassableMember) :
    type.isSilent = false := by
  cases passable with
  | bitfield positive _ =>
    obtain ⟨width, rfl⟩ := Nat.exists_eq_succ_of_ne_zero (Nat.ne_of_gt positive)
    rfl
  | array positive _ =>
    obtain ⟨count, rfl⟩ := Nat.exists_eq_succ_of_ne_zero (Nat.ne_of_gt positive)
    rfl
  | plain passable => exact passable.loud

mutual

/-- A passable type is passed as an element of its own layout. -/
theorem IsPassable.exists_passedAs {type : CType} {layout : Layout} :
    type.IsPassable → type.layout? = some layout → ∃ element, type.PassedAs element
  | .scalar narrow, _ => passedAs_scalar narrow
  | .object _ _, _ | .classRef, _ | .block _, _ | .pointer _, _ =>
    ⟨.pointer, passedAs_pointer rfl rfl⟩
  | .const passable, known => by
    obtain ⟨element, passed⟩ := passable.exists_passedAs (by simpa only [layout?] using known)
    exact ⟨element, passed.const⟩
  | .atomic passable, known => by
    obtain ⟨element, passed⟩ := passable.exists_passedAs (by simpa only [layout?] using known)
    exact ⟨element, passed.atomic⟩
  | .complex passable, known => by
    have parts := known
    simp only [layout?] at parts
    obtain ⟨part, sized, _⟩ := Option.bind_eq_some_iff.mp parts
    obtain ⟨element, passed⟩ := passable.exists_passedAs sized
    exact ⟨_, passed.complex known⟩
  | .union known positive aligned, _ => passedAs_union known positive aligned
  | .struct nonempty passable, known => by
    obtain ⟨runs, _, _, passed⟩ :=
      exists_passedAs_of_loud nonempty (fun member present => (passable member present).follows)
        (fun member present => (passable member present).loud) known
    exact ⟨_, passed⟩

/-- A member of a passable structure follows the cursor. -/
theorem IsPassableMember.follows {type : CType} : type.IsPassableMember → type.Follows
  | .bitfield positive _ => by
    obtain ⟨width, rfl⟩ := Nat.exists_eq_succ_of_ne_zero (Nat.ne_of_gt positive)
    exact follows_bitfield width
  | .array positive passable => by
    obtain ⟨count, rfl⟩ := Nat.exists_eq_succ_of_ne_zero (Nat.ne_of_gt positive)
    refine follows_of_layout? fun whole known => ?_
    simp only [layout?] at known
    obtain ⟨single, sized, _⟩ := Option.bind_eq_some_iff.mp known
    obtain ⟨element, passed⟩ := passable.exists_passedAs sized
    exact passed.follows_array rfl
  | .plain passable => by
    refine follows_of_layout? fun layout known => ?_
    obtain ⟨element, passed⟩ := passable.exists_passedAs known
    exact passed.follows

end

end CType

/-! ## Signatures -/

/-- A signature whose arguments are passable types of known layout; the result may also be `void`. -/
structure Signature.IsPassable (signature : Signature) : Prop where
  arguments : ∀ argument ∈ signature.arguments,
    argument.type.IsPassable ∧ argument.type.isSized = true
  result : signature.result.type.unqualified.isVoid = true ∨
    signature.result.type.IsPassable ∧ signature.result.type.isSized = true

namespace Descriptor

theorem checkLayout_eq_ok {type : CType} {element : Element} (passed : type.PassedAs element) :
    checkLayout type element = .ok () := by
  simp [checkLayout, passed.layout?_eq]

/-- The arguments have elements, and these pass verification. -/
theorem exists_parameters {arguments : List Parameter}
    (each : ∀ argument ∈ arguments, ∃ element, argument.type.PassedAs element) :
    ∃ elements, arguments.mapM (·.type.element) = .ok elements ∧
      ((arguments.zip elements).forM fun (argument, element) =>
        checkLayout argument.type element) = .ok () := by
  induction arguments with
  | nil => exact ⟨[], rfl, rfl⟩
  | cons argument arguments ih =>
    obtain ⟨element, passed⟩ := each argument (List.mem_cons_self ..)
    obtain ⟨elements, found, verified⟩ :=
      ih fun other present => each other (List.mem_cons_of_mem _ present)
    refine ⟨element :: elements, ?_, ?_⟩
    · rw [List.mapM_cons, passed.element_eq, found]
      rfl
    · rw [List.zip_cons_cons]
      change (checkLayout argument.type element >>= fun _ => _) = _
      rw [checkLayout_eq_ok passed]
      exact verified

/-- The result has an element and a layout, and passes verification. -/
theorem exists_result {type : CType}
    (passes : type.unqualified.isVoid = true ∨ ∃ element, type.PassedAs element) :
    ∃ element layout, resultElement type = .ok element ∧ resultLayout type = .ok layout ∧
      checkLayout type element = .ok () := by
  by_cases isVoid : type.unqualified.isVoid = true
  · have scalar : type.unqualified.isAggregate = false := by
      cases kind : type.unqualified <;> first | rfl | simp [kind, CType.isVoid] at isVoid
    refine ⟨.void, .empty, ?_, ?_, ?_⟩
    · rw [resultElement, if_pos isVoid]
    · rw [resultLayout, if_pos isVoid]
    · simp [checkLayout, scalar]
  · obtain ⟨element, passed⟩ := passes.resolve_left isVoid
    refine ⟨element, element.layout, ?_, ?_, checkLayout_eq_ok passed⟩
    · rw [resultElement, if_neg isVoid, passed.element_eq]
    · rw [resultLayout, if_neg isVoid, passed.layout?_eq]

theorem exists_prepare {signature : Signature} (passable : signature.IsPassable)
    (verifyLayouts : Bool) : ∃ descriptor, prepare verifyLayouts signature = .ok descriptor := by
  have passed : ∀ type : CType, type.IsPassable ∧ type.isSized = true →
      ∃ element, type.PassedAs element := by
    rintro type ⟨passable, isSized⟩
    obtain ⟨layout, known⟩ := Option.isSome_iff_exists.mp isSized
    exact passable.exists_passedAs known
  obtain ⟨parameters, found, parametersVerified⟩ :=
    exists_parameters fun argument present => passed _ (passable.arguments argument present)
  obtain ⟨result, returnLayout, isResult, isLayout, resultVerified⟩ :=
    exists_result (passable.result.imp_right (passed _))
  let descriptor : Descriptor := ⟨parameters, result, returnLayout,
    signature.result.type.unqualified.isAggregate && registerReturnLimit < returnLayout.size⟩
  have unverified : ofSignature signature = .ok descriptor := by
    rw [ofSignature, found]
    simp only [isResult, isLayout, bind, Except.bind]
    rfl
  have verified : verify signature descriptor = .ok () := by
    rw [verify]
    exact (congrArg (· >>= _) parametersVerified).trans resultVerified
  refine ⟨descriptor, ?_⟩
  rw [prepare, unverified]
  cases verifyLayouts
  · rfl
  · simp only [bind, Except.bind, if_true, verified]
    rfl

end Descriptor

/-- Every passable type of known layout has an element of that layout; the elements of a structure
fall, in the calling convention's layout, on the offsets that were recorded for them. So a signature
of such types can be prepared, whether its layouts are verified or not. -/
theorem passable_types_reproduced :
    (∀ (type : CType) (layout : Layout), type.IsPassable → type.layout? = some layout →
      ∃ element, type.element = .ok element ∧ element.layout = layout ∧
        ∀ name members, type = .aggregate .struct name members →
          ∃ runs, CType.structRuns name members = .ok runs ∧ element = .record runs.elements ∧
            Element.offsets runs.elements = runs.reverse.map (·.start)) ∧
    ∀ (signature : Signature) (verifyLayouts : Bool), signature.IsPassable →
      ∃ descriptor, Descriptor.prepare verifyLayouts signature = .ok descriptor := by
  constructor
  · intro type layout passable known
    obtain ⟨element, passed⟩ := passable.exists_passedAs known
    have layout_eq : element.layout = layout :=
      Option.some.inj (passed.layout?_eq.symm.trans known)
    refine ⟨element, passed.element_eq, layout_eq, ?_⟩
    rintro name members rfl
    cases passable with
    | struct nonempty passable =>
      obtain ⟨runs, collected, natural, alsoPassed⟩ :=
        CType.exists_passedAs_of_loud nonempty
          (fun member present => (passable member present).follows)
          (fun member present => (passable member present).loud) known
      have same : Passing.one (.ok element) = .one (.ok (.record runs.elements)) :=
        passed.passing_eq.symm.trans alsoPassed.passing_eq
      cases same
      exact ⟨runs, collected, rfl, natural.offsets_eq⟩
  · intro signature verifyLayouts passable
    exact Descriptor.exists_prepare passable verifyLayouts

/-- Bitfields that absorb a character, an array, a complex number and a union. -/
def passableMembers : List Member :=
  [.ofType none (.scalar .char), .ofType none (.bitfield 20), .ofType none (.bitfield 40),
    .ofType none (.array 3 (.scalar .short)), .ofType none (.wrapped .complex (.scalar .float)),
    .ofType none (.aggregate .union none [.ofType none (.scalar .float), .ofType none .classRef])]

theorem passable_types_reproduced_mixed :
    (∃ element, (CType.aggregate .struct none passableMembers).element = .ok element ∧
      element.layout = ⟨40, 8⟩ ∧
        ∃ runs, CType.structRuns none passableMembers = .ok runs ∧
          element = .record runs.elements ∧
            Element.offsets runs.elements = runs.reverse.map (·.start)) ∧
      ∃ descriptor, Descriptor.prepare true
        ⟨⟨.none, .void⟩, [⟨.none, .aggregate .struct none passableMembers⟩]⟩ =
          .ok descriptor := by
  have known : (CType.aggregate .struct none passableMembers).layout? = some ⟨40, 8⟩ := by decide
  have unionKnown : (CType.aggregate .union none
      [.ofType none (.scalar .float), .ofType none .classRef]).layout? = some ⟨8, 8⟩ := by decide
  have passable : (CType.aggregate .struct none passableMembers).IsPassable := by
    refine .struct (by decide) ?_
    simp only [passableMembers, List.forall_mem_cons]
    exact ⟨.plain (.scalar (by decide)), .bitfield (by decide) (by decide),
      .bitfield (by decide) (by decide), .array (by decide) (.scalar (by decide)),
      .plain (.complex (.scalar (by decide))),
      .plain (.union unionKnown (by decide) (by decide)), by simp⟩
  constructor
  · obtain ⟨element, found, layout_eq, collected⟩ := passable_types_reproduced.1 _ _ passable known
    exact ⟨element, found, layout_eq, collected _ _ rfl⟩
  · refine passable_types_reproduced.2 _ true ⟨?_, .inl rfl⟩
    simp only [List.forall_mem_singleton]
    exact ⟨passable, by decide⟩

end ForeignCall
