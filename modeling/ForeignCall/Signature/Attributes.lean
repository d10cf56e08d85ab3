/-! # Argument attributes

A parameter of a signature may carry any set of eight one-character attributes. A set is a record
of flags, so the order and the repetition of codes in a text leave no trace. A set is written in one
canonical order.
-/

namespace ForeignCall

inductive Attribute where
  | const
  | input
  | inputOutput
  | output
  | byCopy
  | byReference
  | oneway
  | legacy
  deriving DecidableEq, Repr

namespace Attribute

/-- Every attribute once, in the order in which a set is written. -/
def all : List Attribute :=
  [const, input, inputOutput, output, byCopy, byReference, oneway, legacy]

/-- The character that stands for an attribute. -/
def code : Attribute → Char
  | const => 'r'
  | input => 'n'
  | inputOutput => 'N'
  | output => 'o'
  | byCopy => 'O'
  | byReference => 'R'
  | oneway => 'V'
  | legacy => '!'

def ofCode? : Char → Option Attribute
  | 'r' => some const
  | 'n' => some input
  | 'N' => some inputOutput
  | 'o' => some output
  | 'O' => some byCopy
  | 'R' => some byReference
  | 'V' => some oneway
  | '!' => some legacy
  | _ => none

theorem ofCode?_code (flag : Attribute) : ofCode? flag.code = some flag := by
  cases flag <;> rfl

theorem code_of_ofCode? {code : Char} {flag : Attribute}
    (read : ofCode? code = some flag) : flag.code = code := by
  unfold ofCode? at read
  split at read <;> simp_all [Attribute.code] <;> subst read <;> rfl

theorem mem_all (flag : Attribute) : flag ∈ all := by
  cases flag <;> simp [all]

end Attribute

structure Attributes where
  const : Bool := false
  input : Bool := false
  inputOutput : Bool := false
  output : Bool := false
  byCopy : Bool := false
  byReference : Bool := false
  oneway : Bool := false
  legacy : Bool := false
  deriving DecidableEq, Repr

namespace Attributes

def none : Attributes := {}

def contains (set : Attributes) : Attribute → Bool
  | .const => set.const
  | .input => set.input
  | .inputOutput => set.inputOutput
  | .output => set.output
  | .byCopy => set.byCopy
  | .byReference => set.byReference
  | .oneway => set.oneway
  | .legacy => set.legacy

def insert (set : Attributes) : Attribute → Attributes
  | .const => { set with const := true }
  | .input => { set with input := true }
  | .inputOutput => { set with inputOutput := true }
  | .output => { set with output := true }
  | .byCopy => { set with byCopy := true }
  | .byReference => { set with byReference := true }
  | .oneway => { set with oneway := true }
  | .legacy => { set with legacy := true }

/-- The attributes of a set in canonical order. -/
def toList (set : Attributes) : List Attribute := Attribute.all.filter set.contains

/-- The codes of a set in canonical order. -/
def encode (set : Attributes) : List Char := set.toList.map Attribute.code

@[simp]
theorem contains_none (flag : Attribute) : none.contains flag = false := by
  cases flag <;> rfl

@[simp]
theorem contains_insert (set : Attributes) (added flag : Attribute) :
    (set.insert added).contains flag = (decide (flag = added) || set.contains flag) := by
  cases added <;> cases flag <;> simp [insert, contains]

theorem ext_contains {left right : Attributes}
    (same : ∀ flag, left.contains flag = right.contains flag) : left = right := by
  have const := same .const
  have input := same .input
  have inputOutput := same .inputOutput
  have output := same .output
  have byCopy := same .byCopy
  have byReference := same .byReference
  have oneway := same .oneway
  have legacy := same .legacy
  cases left
  cases right
  simp only [contains] at *
  simp_all

theorem mem_toList {set : Attributes} {flag : Attribute} :
    flag ∈ set.toList ↔ set.contains flag = true := by
  simp [toList, Attribute.mem_all]

/-- Inserting the attributes of a set, in any order, builds the set. -/
theorem foldl_insert_toList (set : Attributes) : set.toList.foldl insert none = set := by
  rcases set with ⟨_ | _, _ | _, _ | _, _ | _, _ | _, _ | _, _ | _, _ | _⟩ <;> rfl

end Attributes

end ForeignCall
