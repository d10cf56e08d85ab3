import Mathlib.Data.List.Forall2
import ForeignCall.Call.Descriptor

/-! # Preparation of descriptors

A signature is prepared if each of its parameters has an element (`Descriptor.Describes`) and, where
layouts are verified, each aggregate among them has the layout of its element
(`Descriptor.prepare_eq_ok_iff`).
-/

namespace ForeignCall

/-- Two steps succeed if the first does, and the second with what the first gave. -/
theorem bind_eq_ok_iff {ε α β : Type} {first : Except ε α} {second : α → Except ε β} {result : β} :
    first >>= second = .ok result ↔ ∃ given, first = .ok given ∧ second given = .ok result := by
  cases first <;> simp [bind, Except.bind]

/-- A check comes before a step that does not depend on it. -/
theorem check_bind_eq_ok_iff {ε α : Type} {check : Except ε Unit} {step : Except ε α} {result : α} :
    (check >>= fun _ => step) = .ok result ↔ check = .ok () ∧ step = .ok result := by
  cases check <;> simp [bind, Except.bind]

theorem mapError_eq_ok_iff {ε δ α : Type} {given : Except ε α} {change : ε → δ} {result : α} :
    given.mapError change = .ok result ↔ given = .ok result := by
  cases given <;> simp [Except.mapError]

theorem map_eq_ok_iff {ε α β : Type} {given : Except ε α} {change : α → β} {result : β} :
    given.map change = .ok result ↔ ∃ value, given = .ok value ∧ change value = result := by
  cases given <;> simp [Except.map]

namespace Descriptor

variable {signature : Signature} {descriptor : Descriptor} {type : CType} {element : Element}

/-- A descriptor holds what a signature asks for: the elements of the parameters in their order, and
the layout of the result. -/
structure Describes (descriptor : Descriptor) (signature : Signature) : Prop where
  parameters : List.Forall₂ (fun argument element => argument.type.element = .ok element)
    signature.arguments descriptor.parameters
  result : resultElement signature.result.type = .ok descriptor.result
  returnLayout : resultLayout signature.result.type = .ok descriptor.returnLayout
  isIndirect : descriptor.isIndirect = (signature.result.type.unqualified.isAggregate &&
    decide (registerReturnLimit < descriptor.returnLayout.size))

theorem mapM_element_eq_ok_iff {arguments : List Parameter} {elements : List Element} :
    arguments.mapM (·.type.element) = .ok elements ↔
      List.Forall₂ (fun argument element => argument.type.element = .ok element) arguments
        elements := by
  induction arguments generalizing elements with
  | nil =>
    rw [List.mapM_nil, List.forall₂_nil_left_iff]
    exact ⟨fun same => (Except.ok.inj same).symm, fun same => congrArg _ same.symm⟩
  | cons argument arguments ih =>
    simp only [List.mapM_cons, bind_eq_ok_iff, ih, List.forall₂_cons_left_iff, pure, Except.pure,
      Except.ok.injEq]
    constructor
    · rintro ⟨element, found, elements, others, rfl⟩
      exact ⟨element, elements, found, others, rfl⟩
    · rintro ⟨element, elements, found, others, rfl⟩
      exact ⟨element, found, elements, others, rfl⟩

theorem ofSignature_eq_ok_iff : ofSignature signature = .ok descriptor ↔
    descriptor.Describes signature := by
  simp only [ofSignature, bind_eq_ok_iff, mapM_element_eq_ok_iff, pure, Except.pure,
    Except.ok.injEq]
  constructor
  · rintro ⟨parameters, found, result, isResult, returnLayout, isLayout, rfl⟩
    exact ⟨found, isResult, isLayout, rfl⟩
  · rintro ⟨found, isResult, isLayout, isIndirect⟩
    exact ⟨_, found, _, isResult, _, isLayout, by rw [← isIndirect]⟩

/-! ## Verification -/

/-- The types that a call passes with their elements: the arguments in order, then the result. -/
def passed (descriptor : Descriptor) (signature : Signature) : List (CType × Element) :=
  (signature.arguments.map (·.type)).zip descriptor.parameters ++
    [(signature.result.type, descriptor.result)]

theorem checkLayout_eq_ok_iff : checkLayout type element = .ok () ↔
    (type.unqualified.isAggregate = true → type.layout? = some element.layout) := by
  unfold checkLayout
  split
  next isAggregate =>
    cases known : type.layout? with
    | none => simp [isAggregate]
    | some layout => by_cases same : layout = element.layout <;> simp [isAggregate, same]
  next isAggregate => simp [isAggregate]

theorem forM_eq_ok_iff {ε α : Type} {check : α → Except ε Unit} {items : List α} :
    items.forM check = .ok () ↔ ∀ item ∈ items, check item = .ok () := by
  induction items with
  | nil => simp [List.forM, pure, Except.pure]
  | cons item items ih =>
    rw [List.forall_mem_cons, ← ih, List.forM, check_bind_eq_ok_iff]

theorem verify_eq_ok_iff : verify signature descriptor = .ok () ↔
    ∀ pair ∈ descriptor.passed signature,
      pair.1.unqualified.isAggregate = true → pair.1.layout? = some pair.2.layout := by
  rw [verify, check_bind_eq_ok_iff, forM_eq_ok_iff, passed, List.forall_mem_append,
    List.forall_mem_singleton, List.zip_map_left, List.forall_mem_map, checkLayout_eq_ok_iff]
  exact and_congr_left' (forall₂_congr fun _ _ => checkLayout_eq_ok_iff)

/-- Verification adds that every aggregate among the parameters has the layout of its element. -/
theorem prepare_eq_ok_iff {verifyLayouts : Bool} : prepare verifyLayouts signature = .ok descriptor ↔
    descriptor.Describes signature ∧ (verifyLayouts = true →
      ∀ pair ∈ descriptor.passed signature,
        pair.1.unqualified.isAggregate = true → pair.1.layout? = some pair.2.layout) := by
  rw [prepare, bind_eq_ok_iff, ← verify_eq_ok_iff, ← ofSignature_eq_ok_iff]
  cases verifyLayouts with
  | false => simp [pure, Except.pure]
  | true =>
    simp only [if_true, check_bind_eq_ok_iff, pure, Except.pure, Except.ok.injEq]
    constructor
    · rintro ⟨_, described, verified, rfl⟩
      exact ⟨described, fun _ => verified⟩
    · rintro ⟨described, verified⟩
      exact ⟨descriptor, described, verified trivial, rfl⟩

theorem Describes.argumentCount_eq (described : descriptor.Describes signature) :
    descriptor.argumentCount = signature.arguments.length :=
  described.parameters.length_eq.symm

theorem Describes.exists_element {argument : Parameter} (described : descriptor.Describes signature)
    (present : argument ∈ signature.arguments) : ∃ element, argument.type.element = .ok element := by
  obtain ⟨same, each⟩ := List.forall₂_iff_get.mp described.parameters
  obtain ⟨index, rfl⟩ := List.get_of_mem present
  exact ⟨_, each index index.isLt (same ▸ index.isLt)⟩

/-- The layout of a result is that of its type; a result of no value has no bytes. -/
theorem Describes.returnLayout_cases (described : descriptor.Describes signature) :
    signature.result.type.unqualified.isVoid = true ∧ descriptor.returnLayout = .empty ∨
      signature.result.type.unqualified.isVoid = false ∧
        signature.result.type.layout? = some descriptor.returnLayout := by
  have isLayout := described.returnLayout
  unfold resultLayout at isLayout
  split at isLayout
  next isVoid => exact .inl ⟨isVoid, (Except.ok.inj isLayout).symm⟩
  next isValue =>
    refine .inr ⟨by simpa using isValue, ?_⟩
    split at isLayout
    next layout known => rw [known, Except.ok.inj isLayout]
    next => contradiction

/-- A type that is passed has the element that is recorded for it, or is a result of no value. -/
theorem Describes.element_eq (described : descriptor.Describes signature)
    (present : (type, element) ∈ descriptor.passed signature) :
    type.element = .ok element ∨ type.unqualified.isVoid = true := by
  rw [passed, List.mem_append, List.mem_singleton, List.zip_map_left] at present
  rcases present with isArgument | isResult
  · obtain ⟨⟨argument, other⟩, together, same⟩ := List.mem_map.mp isArgument
    cases same
    exact .inl ((List.forall₂_iff_zip.mp described.parameters).2 together)
  · cases isResult
    by_cases isVoid : signature.result.type.unqualified.isVoid = true
    · exact .inr isVoid
    · have result := described.result
      rw [resultElement, if_neg isVoid] at result
      exact .inl result

end Descriptor

end ForeignCall
