import ForeignCall.Proofs.Ownership.Values
import ForeignCall.Session.Basic

/-! # References in registers

How the references that registers hold change when a register is assigned or emptied. The names of
registers are kept distinct.
-/

namespace ForeignCall

namespace Session

variable {registers : List (String × Value)} {name : String} {value : Value}

/-- How many references to an object the values in registers hold. -/
def registerReferences : List (String × Value) → Nat → Nat
  | [], _ => 0
  | (_, value) :: registers, object =>
    value.references object + registerReferences registers object

/-- The references to an object that a register holds; a register that is empty holds none. -/
def referencesIn (registers : List (String × Value)) (name : String) (object : Nat) : Nat :=
  ((registers.lookup name).map fun value => value.references object).getD 0

/-- The order of registers does not count. -/
theorem registerReferences_perm {left right : List (String × Value)} (same : left.Perm right)
    (object : Nat) : registerReferences left object = registerReferences right object := by
  induction same with
  | nil => rfl
  | cons register _ ih => rw [registerReferences, registerReferences, ih]
  | swap first second registers =>
    simp only [registerReferences]
    omega
  | trans _ _ ih ih' => rw [ih, ih']

/-- A value that is assigned takes the place of the one that its register held. -/
theorem registerReferences_assign (name : String) (value : Value)
    (registers : List (String × Value)) (object : Nat) :
    registerReferences (assign name value registers) object + referencesIn registers name object =
      registerReferences registers object + value.references object := by
  induction registers with
  | nil => simp [assign, registerReferences, referencesIn]
  | cons register registers ih =>
    obtain ⟨other, old⟩ := register
    by_cases same : other = name
    · have found : referencesIn ((other, old) :: registers) name object = old.references object := by
        simp [referencesIn, same]
      rw [assign, if_pos same, found, registerReferences, registerReferences]
      omega
    · have missed : referencesIn ((other, old) :: registers) name object =
          referencesIn registers name object := by
        have different : (name == other) = false := by simpa using Ne.symm same
        simp [referencesIn, List.lookup_cons, different]
      rw [assign, if_neg same, missed, registerReferences, registerReferences]
      omega

theorem names_assign (name : String) (value : Value) (registers : List (String × Value)) :
    (assign name value registers).map (·.1) =
      registers.map (·.1) ++ if name ∈ registers.map (·.1) then [] else [name] := by
  induction registers with
  | nil => rfl
  | cons register registers ih =>
    obtain ⟨other, old⟩ := register
    by_cases same : other = name
    · simp [assign, same]
    · have different : name ≠ other := Ne.symm same
      simp only [assign, if_neg same, List.map_cons, ih, List.cons_append, List.mem_cons, different,
        false_or]

theorem nodup_assign (distinct : (registers.map (·.1)).Nodup) (name : String) (value : Value) :
    ((assign name value registers).map (·.1)).Nodup := by
  rw [names_assign]
  split
  · simpa using distinct
  next absent =>
    rw [List.nodup_append]
    refine ⟨distinct, by simp, ?_⟩
    intro other present another isName
    rw [List.mem_singleton.mp isName]
    rintro rfl
    exact absent present

/-- Emptying a register takes away what it holds. -/
theorem registerReferences_filter (distinct : (registers.map (·.1)).Nodup)
    (found : registers.lookup name = some value) (object : Nat) :
    registerReferences registers object =
      value.references object + registerReferences (registers.filter (·.1 ≠ name)) object := by
  induction registers with
  | nil => contradiction
  | cons register registers ih =>
    obtain ⟨other, old⟩ := register
    obtain ⟨fresh, distinct⟩ := List.nodup_cons.mp distinct
    by_cases same : other = name
    · have kept : registers.filter (·.1 ≠ name) = registers := by
        rw [List.filter_eq_self]
        intro register present
        rw [decide_eq_true_eq]
        rintro isName
        exact fresh (List.mem_map.mpr ⟨register, present, isName.trans same.symm⟩)
      obtain rfl : old = value := by simpa [List.lookup_cons, same] using found
      rw [List.filter_cons_of_neg (by simp [same]), kept, registerReferences]
    · have different : (name == other) = false := by simpa using Ne.symm same
      have found' : registers.lookup name = some value := by
        simpa only [List.lookup_cons, different] using found
      rw [List.filter_cons_of_pos (by simp [same]), registerReferences, registerReferences,
        ih distinct found']
      omega

/-- Ending registers, in any order, drops what they hold. -/
theorem balance_flatMap_dropEvents (registers : List (String × Value)) (object : Nat) :
    balance (registers.flatMap (·.2.dropEvents)) object = -registerReferences registers object := by
  induction registers with
  | nil => rfl
  | cons register registers ih =>
    obtain ⟨name, value⟩ := register
    have first := Value.balance_dropEvents value object
    rw [List.flatMap_cons, balance_append, first, ih, registerReferences]
    omega

end Session

end ForeignCall
