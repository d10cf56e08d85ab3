/-! # Blank characters

Two classes of blanks: the ASCII blanks that separate the tokens of a signature, and all characters
that Unicode calls white space, which are cut off around settings. `isBlank_of_isAsciiBlank` says
that the first class is part of the second.
-/

namespace ForeignCall.Text

/-- Tab, line feed, form feed, carriage return and space; the vertical tab is not among them. -/
def isAsciiBlank (c : Char) : Bool :=
  c = '\t' || c = '\n' || c = '\x0c' || c = '\r' || c = ' '

/-- The characters with the Unicode property White_Space. -/
def isBlank (c : Char) : Bool :=
  let code := c.toNat
  (0x09 ≤ code && code ≤ 0x0D) || code = 0x20 || code = 0x85 || code = 0xA0 || code = 0x1680
    || (0x2000 ≤ code && code ≤ 0x200A) || code = 0x2028 || code = 0x2029 || code = 0x202F
    || code = 0x205F || code = 0x3000

/-- The text without the blanks at its two ends. -/
def trim (text : List Char) : List Char :=
  ((text.dropWhile isBlank).reverse.dropWhile isBlank).reverse

theorem isBlank_of_isAsciiBlank {c : Char} (blank : isAsciiBlank c = true) : isBlank c = true := by
  simp only [isAsciiBlank, Bool.or_eq_true, decide_eq_true_eq] at blank
  rcases blank with (((rfl | rfl) | rfl) | rfl) | rfl <;> decide

theorem dropWhile_eq_nil_iff {p : Char → Bool} {text : List Char} :
    text.dropWhile p = [] ↔ ∀ c ∈ text, p c = true := by
  induction text with
  | nil => simp
  | cons c text ih => by_cases holds : p c = true <;> simp [holds, ih]

theorem trim_eq_nil_iff {text : List Char} : trim text = [] ↔ ∀ c ∈ text, isBlank c = true := by
  simp only [trim, List.reverse_eq_nil_iff, dropWhile_eq_nil_iff, List.mem_reverse]
  constructor
  · intro blank
    rw [← dropWhile_eq_nil_iff]
    cases kept : text.dropWhile isBlank with
    | nil => rfl
    | cons c rest =>
      have first := List.head_dropWhile_not isBlank (l := text) (by simp [kept])
      simp only [kept, List.head_cons] at first
      simp [kept, first] at blank
  · intro blank c member
    exact blank c ((List.dropWhile_sublist isBlank).subset member)

end ForeignCall.Text
