import ForeignCall.CType.Acceptance
import ForeignCall.CType.Ownership
import ForeignCall.Call.Element

/-! # Acceptance keeps the representation

A slot that accepts a type differs from it in `const` wrappers, in the target of a pointer, or in
what it asks of an object (`CType.Alike`). None of these is seen in the bytes of a value: where one
type accepts another, the two have the same layout, own references at the same places and are passed
to a callee as the same element (`CType.representation_of_accepts`).
-/

namespace ForeignCall

namespace CType

variable {host : Hierarchy} {target source : CType}

/-! ## Leading `const` wrappers -/

theorem withoutConst_ne_const (type inner : CType) : type.withoutConst ≠ wrapped .const inner := by
  fun_induction withoutConst type with
  | case1 inner' ih => exact ih
  | case2 type notConst => exact fun same => notConst inner same

theorem withoutConst_withoutConst (type : CType) : type.withoutConst.withoutConst = type.withoutConst := by
  fun_induction withoutConst type with
  | case1 inner ih => exact ih
  | case2 type notConst =>
    unfold withoutConst
    split
    next inner => exact (notConst inner rfl).elim
    next => rfl

theorem accepts_withoutConst_left (target source : CType) :
    accepts host target.withoutConst source = accepts host target source := by
  fun_induction withoutConst target with
  | case1 inner ih => rw [ih, accepts]
  | case2 => rfl

theorem accepts_withoutConst_right (target source : CType) :
    accepts host target source.withoutConst = accepts host target source := by
  fun_induction withoutConst target with
  | case1 inner ih => rw [accepts, accepts, ih]
  | case2 target notConst =>
    unfold accepts
    split
    next inner _ => exact (notConst _ rfl).elim
    all_goals simp only [withoutConst_withoutConst]

theorem layout?_withoutConst (type : CType) : type.withoutConst.layout? = type.layout? := by
  fun_induction withoutConst type with
  | case1 inner ih => rw [ih, layout?]
  | case2 => rfl

theorem ownedSlots_withoutConst (type : CType) : type.withoutConst.ownedSlots = type.ownedSlots := by
  fun_induction withoutConst type with
  | case1 inner ih => rw [ih, ownedSlots]
  | case2 => rfl

theorem element_withoutConst (type : CType) : type.withoutConst.element = type.element := by
  fun_induction withoutConst type with
  | case1 inner ih => rw [ih, element, element, passing, unqualified_const]
  | case2 => rfl

/-! ## Types that accept one another -/

/-- A reference that is counted where it is stored: to an object or a block, and not to a class. -/
def isCounted : CType → Bool
  | object _ _ | block _ => true
  | _ => false

/-- Types that differ at most in what a reference refers to. -/
inductive Alike : CType → CType → Prop where
  | same (type : CType) : Alike type type
  | pointers (target source : CType) : Alike (wrapped .pointer target) (wrapped .pointer source)
  | references {target source : CType} (isTarget : target.isCounted = true)
    (isSource : source.isCounted = true) : Alike target source

/-- A type is like every type that it accepts, once the leading `const` wrappers are gone. -/
theorem alike_of_accepts (accepted : accepts host target source = true) :
    Alike target.withoutConst source.withoutConst := by
  rw [← accepts_withoutConst_left] at accepted
  have notConst := withoutConst_ne_const target
  generalize target.withoutConst = target at accepted notConst ⊢
  unfold accepts at accepted
  split at accepted
  next inner _ => exact (notConst _ rfl).elim
  next =>
    split at accepted
    next actual isPointer =>
      rw [isPointer]
      exact .pointers _ actual
    next => contradiction
  next className protocols =>
    unfold acceptsObject at accepted
    split at accepted
    next isObject => exact .references rfl (by rw [isObject]; rfl)
    next isBlock => exact .references rfl (by rw [isBlock]; rfl)
    next => contradiction
  next signature =>
    unfold acceptsBlock at accepted
    split at accepted
    next isBlock => exact .references rfl (by rw [isBlock]; rfl)
    next => contradiction
  next =>
    rw [← of_decide_eq_true accepted]
    exact .same target

theorem representation_of_isCounted {type : CType} (counted : type.isCounted = true) :
    type.layout? = some .pointer ∧ type.ownedSlots = [0] ∧ type.element = .ok .pointer := by
  unfold isCounted at counted
  split at counted
  next => exact ⟨by rw [layout?], by rw [ownedSlots], rfl⟩
  next => exact ⟨by rw [layout?], by rw [ownedSlots], rfl⟩
  next => contradiction

theorem Alike.representation (alike : Alike target source) :
    target.layout? = source.layout? ∧ target.ownedSlots = source.ownedSlots ∧
      target.element = source.element := by
  cases alike with
  | same => exact ⟨rfl, rfl, rfl⟩
  | pointers => exact ⟨by simp only [layout?], by simp only [ownedSlots], rfl⟩
  | references isTarget isSource =>
    obtain ⟨layout, owned, element⟩ := representation_of_isCounted isTarget
    obtain ⟨layout', owned', element'⟩ := representation_of_isCounted isSource
    exact ⟨layout.trans layout'.symm, owned.trans owned'.symm, element.trans element'.symm⟩

/-- A type has the layout, the owned slots and the element of every type that it accepts. -/
theorem representation_of_accepts (accepted : accepts host target source = true) :
    target.layout? = source.layout? ∧ target.ownedSlots = source.ownedSlots ∧
      target.element = source.element := by
  have alike := (alike_of_accepts accepted).representation
  simpa only [layout?_withoutConst, ownedSlots_withoutConst, element_withoutConst] using alike

end CType

end ForeignCall
