import ForeignCall.Proofs.Acceptance.Representation

/-! # Acceptance is a preorder

A type accepts itself, and whatever a type accepts is accepted wherever the type itself is
(`CType.accepts_isPreorder`). The host has to pass on inheritance and protocols to subclasses. The type
in the middle must not be a block without a signature, which accepts and is accepted by every block.
A comparison may stop at types that are shared, since they are the same; that changes no answer
(`CType.compares_iff`).
-/

namespace ForeignCall

/-- Inheritance goes on from class to class, and a class adopts what the classes above it do. -/
structure Hierarchy.IsInherited (host : Hierarchy) : Prop where
  trans : ∀ {lower middle upper : String}, host.isSubclass lower middle = true →
    host.isSubclass middle upper = true → host.isSubclass lower upper = true
  adopts : ∀ {lower upper protocol : String}, host.isSubclass lower upper = true →
    host.conformsTo upper protocol = true → host.conformsTo lower protocol = true

namespace Hierarchy

variable {host : Hierarchy} {target middle source : Option String} {adopted adopted' : List String}
  {protocol : String}

theorem admitsClass_self (host : Hierarchy) (className : Option String) :
    host.admitsClass className className = true := by
  cases className <;> simp [admitsClass]

theorem IsInherited.admitsClass_trans (inherited : host.IsInherited)
    (first : host.admitsClass target middle = true) (second : host.admitsClass middle source = true) :
    host.admitsClass target source = true := by
  cases target with
  | none => rfl
  | some expected =>
    cases middle with
    | none => contradiction
    | some between =>
      cases source with
      | none => contradiction
      | some actual =>
        simp only [admitsClass, Bool.or_eq_true, decide_eq_true_eq] at first second ⊢
        rcases first with rfl | above
        · exact second
        · rcases second with rfl | below
          · exact .inr above
          · exact .inr (inherited.trans below above)

/-- A protocol that is admitted of an object is admitted of every object that is admitted in its
place. -/
theorem IsInherited.admitsProtocol_trans (inherited : host.IsInherited)
    (class_le : host.admitsClass middle source = true)
    (protocols_le : ∀ protocol ∈ adopted, host.admitsProtocol source adopted' protocol = true)
    (first : host.admitsProtocol middle adopted protocol = true) :
    host.admitsProtocol source adopted' protocol = true := by
  simp only [admitsProtocol, Bool.or_eq_true, List.contains_iff_mem] at first protocols_le ⊢
  rcases first with listed | conforms
  · exact protocols_le protocol listed
  · cases middle with
    | none => contradiction
    | some between =>
      cases source with
      | none => contradiction
      | some actual =>
        simp only [Option.any_some] at conforms ⊢
        simp only [admitsClass, Bool.or_eq_true, decide_eq_true_eq] at class_le
        rcases class_le with rfl | below
        · exact .inr conforms
        · exact .inr (inherited.adopts below conforms)

end Hierarchy

namespace CType

variable {host : Hierarchy} {target middle source : CType}

/-- Behind its wrappers a type is no block, or one that carries its signature. So is every type in
which all blocks carry one; what lies inside aggregates and signatures is compared as it is. -/
def isSigned : CType → Bool
  | block signature => signature.isSome
  | wrapped _ inner => inner.isSigned
  | _ => true

theorem isSigned_withoutConst (type : CType) : type.withoutConst.isSigned = type.isSigned := by
  fun_induction withoutConst type with
  | case1 inner ih => rw [ih, isSigned]
  | case2 => rfl

theorem unqualified_withoutConst (type : CType) :
    type.withoutConst.unqualified = type.unqualified := by
  fun_induction withoutConst type with
  | case1 inner ih => rw [ih, unqualified_const]
  | case2 => rfl

/-! ## A type accepts itself -/

theorem acceptsObject_self (host : Hierarchy) (className : Option String) (protocols : List String) :
    acceptsObject host className protocols (object className protocols) = true := by
  simp only [acceptsObject, host.admitsClass_self, Bool.true_and, List.all_eq_true]
  intro protocol asked
  simp [Hierarchy.admitsProtocol, asked]

theorem acceptsBlock_self (signature : Option Signature) :
    acceptsBlock signature (block signature) = true := by
  cases signature <;> simp [acceptsBlock]

theorem accepts_self (host : Hierarchy) : (type : CType) → accepts host type type = true
  | wrapped .const inner => by
    rw [← accepts_withoutConst_left, ← accepts_withoutConst_right, withoutConst,
      accepts_withoutConst_left, accepts_withoutConst_right]
    exact accepts_self host inner
  | wrapped .pointer inner => by simp [accepts, withoutConst, accepts_self host inner]
  | object className protocols => acceptsObject_self host className protocols
  | block signature => acceptsBlock_self signature
  | unknown | void | scalar _ | classRef | wrapped .vector _ | wrapped .complex _
  | wrapped .atomic _ | bitfield _ | array _ _ | forward _ _ | aggregate _ _ _ => by
    simp [accepts, withoutConst]

/-! ## What is accepted is accepted in place of the slot -/

/-- Only what is void itself accepts a void type, whatever the qualifiers. -/
theorem isVoid_of_accepts (accepted : accepts host target source = true)
    (isVoid : source.unqualified.isVoid = true) : target.unqualified.isVoid = true := by
  have alike := alike_of_accepts accepted
  rw [← unqualified_withoutConst] at isVoid ⊢
  generalize target.withoutConst = target at alike ⊢
  generalize source.withoutConst = source at alike isVoid
  cases alike with
  | same => exact isVoid
  | pointers => contradiction
  | references _ isSource => cases source <;> contradiction

theorem acceptsObject_trans (inherited : host.IsInherited) {className : Option String}
    {protocols : List String}
    (first : acceptsObject host className protocols middle = true)
    (second : accepts host middle source = true) :
    acceptsObject host className protocols source.withoutConst = true := by
  cases middle with
  | object between adopted =>
    rw [accepts] at second
    simp only [acceptsObject, Bool.and_eq_true, List.all_eq_true] at first
    obtain ⟨class_le, protocols_le⟩ := first
    generalize source.withoutConst = source at second ⊢
    cases source with
    | object actual adopted' =>
      simp only [acceptsObject, Bool.and_eq_true, List.all_eq_true] at second ⊢
      obtain ⟨class_le', protocols_le'⟩ := second
      exact ⟨inherited.admitsClass_trans class_le class_le', fun protocol asked =>
        inherited.admitsProtocol_trans class_le' protocols_le' (protocols_le protocol asked)⟩
    | block signature =>
      -- A block has neither class nor protocols, so the object in the middle asked for none.
      simp only [acceptsObject, Bool.and_eq_true, Option.isNone_iff_eq_none,
        List.isEmpty_iff] at second ⊢
      obtain ⟨rfl, rfl⟩ := second
      constructor
      · cases className with
        | none => rfl
        | some expected => contradiction
      · rw [List.eq_nil_iff_forall_not_mem]
        intro protocol asked
        simpa [Hierarchy.admitsProtocol] using protocols_le protocol asked
    | _ => contradiction
  | block signature =>
    rw [accepts] at second
    generalize source.withoutConst = source at second ⊢
    cases source with
    | block actual => exact first
    | _ => contradiction
  | _ => contradiction

theorem acceptsBlock_trans {expected : Option Signature} (signed : middle.isSigned = true)
    (first : acceptsBlock expected middle = true) (second : accepts host middle source = true) :
    acceptsBlock expected source.withoutConst = true := by
  cases middle with
  | block signature =>
    rw [accepts] at second
    obtain ⟨between, rfl⟩ := Option.isSome_iff_exists.mp signed
    generalize source.withoutConst = source at second ⊢
    cases source with
    | block actual =>
      cases expected <;> cases actual <;> simp_all [acceptsBlock]
    | _ => contradiction
  | _ => contradiction

theorem accepts_trans (inherited : host.IsInherited) :
    (target : CType) → {middle source : CType} → middle.isSigned = true →
      accepts host target middle = true → accepts host middle source = true →
        accepts host target source = true
  | wrapped .const target, middle, source, signed, first, second => by
    rw [accepts] at first ⊢
    exact accepts_trans inherited target signed first second
  | wrapped .pointer target, middle, source, signed, first, second => by
    rw [← isSigned_withoutConst] at signed
    rw [← accepts_withoutConst_left] at second
    rw [accepts] at first ⊢
    split at first
    next between isPointer =>
      rw [isPointer] at signed second
      have signed : between.isSigned = true := signed
      rw [accepts] at second
      split at second
      next actual _ =>
        simp only [Bool.or_eq_true] at first second ⊢
        rcases first with isVoid | first
        · exact .inl isVoid
        · rcases second with isVoid | second
          · exact .inl (isVoid_of_accepts first isVoid)
          · exact .inr (accepts_trans inherited target signed first second)
      next => contradiction
    next => contradiction
  | object className protocols, middle, source, signed, first, second => by
    rw [← accepts_withoutConst_left] at second
    rw [accepts] at first ⊢
    exact acceptsObject_trans inherited first second
  | block expected, middle, source, signed, first, second => by
    rw [← isSigned_withoutConst] at signed
    rw [← accepts_withoutConst_left] at second
    rw [accepts] at first ⊢
    exact acceptsBlock_trans signed first second
  | unknown, middle, source, signed, first, second | void, middle, source, signed, first, second
  | scalar _, middle, source, signed, first, second | classRef, middle, source, signed, first, second
  | wrapped .vector _, middle, source, signed, first, second
  | wrapped .complex _, middle, source, signed, first, second
  | wrapped .atomic _, middle, source, signed, first, second
  | bitfield _, middle, source, signed, first, second | array _ _, middle, source, signed, first, second
  | forward _ _, middle, source, signed, first, second
  | aggregate _ _ _, middle, source, signed, first, second => by
    have same : _ = middle.withoutConst := of_decide_eq_true first
    rw [same, accepts_withoutConst_left]
    exact second

/-! ## Shared types -/

/-- The answers of a comparison that may stop wherever its two types are the same, as it does when they
are shared. Two types of which neither is a `const`, and not both are pointers, are compared at once. -/
inductive Compares (host : Hierarchy) : CType → CType → Bool → Prop where
  | shared (type : CType) : Compares host type type true
  | consts {target source : CType} {answer : Bool} (inner : Compares host target source answer) :
    Compares host (wrapped .const target) (wrapped .const source) answer
  | constTarget {target source : CType} {answer : Bool} (bare : source.withoutConst = source)
    (inner : Compares host target source answer) :
    Compares host (wrapped .const target) source answer
  | constSource {target source : CType} {answer : Bool} (bare : target.withoutConst = target)
    (inner : Compares host target source answer) :
    Compares host target (wrapped .const source) answer
  | pointers {target source : CType} {answer : Bool} (inner : Compares host target source answer) :
    Compares host (wrapped .pointer target) (wrapped .pointer source)
      (target.unqualified.isVoid || answer)
  | atOnce {target source : CType} (bare : target.withoutConst = target)
    (bare' : source.withoutConst = source)
    (different : ¬(target.isPointer = true ∧ source.isPointer = true)) :
    Compares host target source (accepts host target source)

theorem isConst_or_bare (type : CType) :
    (∃ inner, type = wrapped .const inner) ∨ type.withoutConst = type := by
  fun_cases withoutConst type with
  | case1 inner => exact .inl ⟨inner, rfl⟩
  | case2 => exact .inr rfl

theorem exists_pointee_of_isPointer {type : CType} (isPointer : type.isPointer = true) :
    ∃ pointee, type = wrapped .pointer pointee := by
  unfold CType.isPointer at isPointer
  split at isPointer
  next pointee => exact ⟨pointee, rfl⟩
  next => contradiction

theorem accepts_consts (target source : CType) :
    accepts host (wrapped .const target) (wrapped .const source) = accepts host target source := by
  rw [accepts, ← accepts_withoutConst_right, withoutConst, accepts_withoutConst_right]

theorem accepts_constSource (target source : CType) :
    accepts host target (wrapped .const source) = accepts host target source := by
  rw [← accepts_withoutConst_right, withoutConst, accepts_withoutConst_right]

theorem accepts_pointers (target source : CType) :
    accepts host (wrapped .pointer target) (wrapped .pointer source) =
      (target.unqualified.isVoid || accepts host target source) := by
  rw [accepts, withoutConst]
  simp

/-- Without sharing the answer is that of acceptance. -/
theorem compares_accepts (target source : CType) :
    Compares host target source (accepts host target source) := by
  rcases isConst_or_bare target with ⟨target, rfl⟩ | bare
  · rcases isConst_or_bare source with ⟨source, rfl⟩ | bare'
    · rw [accepts_consts]
      exact .consts (compares_accepts target source)
    · rw [accepts]
      exact .constTarget bare' (compares_accepts target source)
  · rcases isConst_or_bare source with ⟨source, rfl⟩ | bare'
    · rw [accepts_constSource]
      exact .constSource bare (compares_accepts target source)
    · by_cases pointers : target.isPointer = true ∧ source.isPointer = true
      · obtain ⟨target, rfl⟩ := exists_pointee_of_isPointer pointers.1
        obtain ⟨source, rfl⟩ := exists_pointee_of_isPointer pointers.2
        rw [accepts_pointers]
        exact .pointers (compares_accepts target source)
      · exact .atOnce bare bare' pointers
termination_by sizeOf target + sizeOf source

/-- Sharing changes no answer. -/
theorem compares_iff {answer : Bool} :
    Compares host target source answer ↔ accepts host target source = answer := by
  constructor
  · intro compares
    induction compares with
    | shared type => exact accepts_self host type
    | consts _ ih => rw [accepts_consts, ih]
    | constTarget _ _ ih => rw [accepts, ih]
    | constSource _ _ ih => rw [accepts_constSource, ih]
    | pointers _ ih => rw [accepts_pointers, ih]
    | atOnce => rfl
  · rintro rfl
    exact compares_accepts target source

/-- Acceptance is a preorder, with any host that passes on inheritance and protocols. A type accepts
itself, and no answer depends on whether types are shared. A value that a slot accepts is accepted
wherever the slot's own type is, unless that is an unsigned block. -/
theorem accepts_isPreorder (host : Hierarchy) (inherited : host.IsInherited) :
    (∀ type, accepts host type type = true) ∧
    (∀ target source answer, Compares host target source answer ↔ accepts host target source = answer) ∧
    ∀ target middle source : CType, middle.isSigned = true →
      accepts host target middle = true → accepts host middle source = true →
        accepts host target source = true := by
  refine ⟨accepts_self host, fun _ _ _ => compares_iff, ?_⟩
  intro target middle source signed first second
  exact accepts_trans inherited target signed first second

/-- A block without a signature stands between blocks that do not accept each other. -/
example : ∃ target source : CType,
    accepts .flat target (block none) = true ∧ accepts .flat (block none) source = true ∧
      accepts .flat target source = false :=
  ⟨block (some ⟨⟨.none, void⟩, []⟩), block (some ⟨⟨.none, scalar .int⟩, []⟩), by cbv⟩

/-- Three classes one under the other, of which the first adopts a protocol. -/
def chainHierarchy : Hierarchy where
  isSubclass lower upper := (lower, upper) ∈ [("Leaf", "Node"), ("Node", "Root"), ("Leaf", "Root")]
  conformsTo lower protocol := protocol = "Copying" && lower ∈ ["Root", "Node", "Leaf"]

/-- A constant pointer to a copying object of the root class accepts a pointer to a constant leaf,
because it accepts a pointer to a node. -/
theorem accepts_isPreorder_chain :
    chainHierarchy.IsInherited ∧
      accepts chainHierarchy (wrapped .const (pointer (object (some "Root") ["Copying"])))
        (pointer (wrapped .const (object (some "Node") []))) = true ∧
      accepts chainHierarchy (pointer (wrapped .const (object (some "Node") [])))
        (wrapped .const (pointer (object (some "Leaf") []))) = true ∧
      accepts chainHierarchy (wrapped .const (pointer (object (some "Root") ["Copying"])))
        (wrapped .const (pointer (object (some "Leaf") []))) = true := by
  have inherited : chainHierarchy.IsInherited := by
    constructor
    · simp only [chainHierarchy, List.mem_cons, Prod.mk.injEq, List.not_mem_nil, decide_eq_true_eq]
      rintro lower middle upper (⟨rfl, rfl⟩ | ⟨rfl, rfl⟩ | ⟨rfl, rfl⟩ | _) (⟨_, rfl⟩ | ⟨_, rfl⟩ | ⟨_, rfl⟩ | _) <;>
        simp_all
    · simp only [chainHierarchy]
      grind
  have first : accepts chainHierarchy (wrapped .const (pointer (object (some "Root") ["Copying"])))
      (pointer (wrapped .const (object (some "Node") []))) = true := by decide
  have second : accepts chainHierarchy (pointer (wrapped .const (object (some "Node") [])))
      (wrapped .const (pointer (object (some "Leaf") []))) = true := by decide
  exact ⟨inherited, first, second,
    (accepts_isPreorder chainHierarchy inherited).2.2 _ _ _ rfl first second⟩

end CType

end ForeignCall
