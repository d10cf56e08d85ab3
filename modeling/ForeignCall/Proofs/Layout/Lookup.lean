import Mathlib.Data.List.Find
import ForeignCall.Proofs.Layout.Soundness

/-! # Lookup by a byte

`CType.fieldAtOffset?` answers the first field that starts at a byte or holds it, and counts all bytes of
the storage unit as held by a bitfield. The fields of a structure lie apart bit by bit, so an ordinary field
is the only one to have bits in its bytes, yet an earlier one may be answered in its place: a bitfield whose
unit reaches over the byte, or a field of no bytes that starts at it. Such a field `shadows` the byte, and
nothing else stands between a byte and the field that holds it (`WellPlaced.occupies_eq_shadows`).
-/

namespace ForeignCall

namespace Field

variable {field : Field} {byte : Nat}

/-- Whether a byte is one of a field's bytes; those of a bitfield are its storage unit. -/
def holds (field : Field) (byte : Nat) : Bool :=
  field.offset?.any fun start => start ≤ byte && byte < start + field.byteCount

/-- Whether a field can be taken for the occupant of a byte that a later one holds: a bitfield by its storage
unit, and a field of no bytes by its start. -/
def shadows (field : Field) (byte : Nat) : Bool :=
  field.width?.isSome && field.holds byte || field.byteCount = 0 && field.offset? = some byte

theorem holds_iff : field.holds byte = true ↔
    ∃ start, field.offset? = some start ∧ start ≤ byte ∧ byte < start + field.byteCount := by
  simp [holds, Option.any_eq_true]

/-- A field occupies the bytes that it holds, and the byte where it starts even if it has none. -/
theorem occupies_iff :
    field.occupies byte = true ↔ field.offset? = some byte ∨ field.holds byte = true := by
  rw [holds_iff, occupies]
  cases offset : field.offset? with
  | none => simp
  | some start =>
    simp only [Bool.or_eq_true, Bool.and_eq_true, decide_eq_true_eq, Option.some.injEq, exists_eq_left']
    omega

theorem shadows_iff :
    field.shadows byte = true ↔
      (∃ width, field.width? = some width) ∧ field.holds byte = true ∨
        field.byteCount = 0 ∧ field.offset? = some byte := by
  simp [shadows, Option.isSome_iff_exists]

theorem occupies_of_shadows (shadowed : field.shadows byte = true) : field.occupies byte = true := by
  rcases shadows_iff.mp shadowed with ⟨_, inside⟩ | ⟨_, start⟩
  · exact occupies_iff.mpr (.inr inside)
  · exact occupies_iff.mpr (.inl start)

end Field

section

variable {fields before after : List Field} {field other : Field} {size byte : Nat}

/-- An earlier field ends before a later one begins. -/
theorem WellPlaced.end_le_of_split (wellPlaced : WellPlaced fields size)
    (split : fields = before ++ field :: after) (earlier : other ∈ before) :
    other.firstBit + other.bitCount ≤ field.firstBit := by
  have ordered := wellPlaced.ordered
  rw [split, List.pairwise_append] at ordered
  exact ordered.2.2 other earlier field (List.mem_cons_self ..)

/-- Before a byte that an ordinary field holds, only fields that shadow the byte occupy it. -/
theorem WellPlaced.occupies_eq_shadows (wellPlaced : WellPlaced fields size)
    (split : fields = before ++ field :: after) (ordinary : field.width? = none)
    (inside : field.holds byte = true) (earlier : other ∈ before) :
    other.occupies byte = other.shadows byte := by
  obtain ⟨start, placed⟩ := wellPlaced.placed field (by simp [split])
  obtain ⟨offset, placed'⟩ := wellPlaced.placed other (by simp [split, earlier])
  have ends := wellPlaced.end_le_of_split split earlier
  rw [(placed.bits_of_ordinary ordinary).1] at ends
  obtain ⟨_, same, low, _⟩ := Field.holds_iff.mp inside
  cases placed.offset_eq.symm.trans same
  refine Bool.eq_iff_iff.mpr ⟨fun occupied => ?_, Field.occupies_of_shadows⟩
  rw [Field.occupies_iff, Field.holds_iff] at occupied
  rw [Field.shadows_iff, Field.holds_iff]
  simp only [placed'.offset_eq, Option.some.injEq, exists_eq_left'] at occupied ⊢
  cases isBits : other.width? with
  | some width =>
    have unit := (placed'.inUnit width isBits).1
    have positive := (Cursor.storageUnit?_spec unit).1.pos
    exact .inl ⟨⟨width, rfl⟩, by omega⟩
  | none =>
    -- One with bytes ends before the byte, so it could only be found by its start, which is no later.
    obtain ⟨first, count⟩ := placed'.bits_of_ordinary isBits
    exact .inr (by omega)

/-- A byte that an ordinary field holds is answered by the first earlier field that shadows it, and by the
field itself if there is none. -/
theorem WellPlaced.find?_occupies (wellPlaced : WellPlaced fields size)
    (split : fields = before ++ field :: after) (ordinary : field.width? = none)
    (inside : field.holds byte = true) :
    fields.find? (·.occupies byte) = some ((before.find? (·.shadows byte)).getD field) := by
  have itself : field.occupies byte = true := Field.occupies_iff.mpr (.inr inside)
  have earlier : before.find? (·.occupies byte) = before.find? (·.shadows byte) := by
    apply List.find?_congr
    intro other present
    exact wellPlaced.occupies_eq_shadows split ordinary inside present
  rw [split, List.find?_append, earlier, List.find?_cons, itself]
  cases before.find? (·.shadows byte) <;> rfl

/-- What comes before an ordinary field is another field, and ends before each byte of it. -/
theorem WellPlaced.ne_and_end_le_of_earlier (wellPlaced : WellPlaced fields size)
    (split : fields = before ++ field :: after) (ordinary : field.width? = none)
    (inside : field.holds byte = true) (earlier : other ∈ before) :
    other ≠ field ∧ other.firstBit + other.bitCount ≤ 8 * byte := by
  obtain ⟨start, placed⟩ := wellPlaced.placed field (by simp [split])
  obtain ⟨_, same, low, high⟩ := Field.holds_iff.mp inside
  cases placed.offset_eq.symm.trans same
  obtain ⟨first, count⟩ := placed.bits_of_ordinary ordinary
  have ends := wellPlaced.end_le_of_split split earlier
  refine ⟨?_, by omega⟩
  rintro rfl
  omega

/-- An ordinary field is answered at a byte of it exactly if no earlier field shadows the byte. -/
theorem WellPlaced.find?_occupies_eq_self_iff (wellPlaced : WellPlaced fields size)
    (split : fields = before ++ field :: after) (ordinary : field.width? = none)
    (inside : field.holds byte = true) :
    fields.find? (·.occupies byte) = some field ↔ ∀ other ∈ before, other.shadows byte = false := by
  rw [wellPlaced.find?_occupies split ordinary inside, Option.some.injEq]
  constructor
  · intro itself other present
    cases shadowing : before.find? (·.shadows byte) with
    | none => simpa using List.find?_eq_none.mp shadowing other present
    | some answer =>
      rw [shadowing, Option.getD_some] at itself
      have among := List.mem_of_find?_eq_some shadowing
      exact absurd itself (wellPlaced.ne_and_end_le_of_earlier split ordinary inside among).1
  · intro clear
    have none_shadows : before.find? (·.shadows byte) = none := List.find?_eq_none.mpr (by simpa using clear)
    rw [none_shadows, Option.getD_none]

end

namespace CType

/-- In a structure of known layout, a byte of a field that is no bitfield is answered by the first earlier
field that shadows it, whose bits all lie before the byte, and by the field itself exactly if none does. A
byte is answered by no field exactly if it lies in no field's bytes or storage unit and none starts at it. -/
theorem occupant_found_iff_not_shadowed (name : Option String) (members : List Member) (layout : Layout)
    (known : (aggregate .struct name members).layout? = some layout) :
    (∀ before field after byte, placedFields .struct members = before ++ field :: after →
      field.width? = none → field.holds byte = true →
        (aggregate .struct name members).fieldAtOffset? byte =
            some ((before.find? (·.shadows byte)).getD field) ∧
          ((aggregate .struct name members).fieldAtOffset? byte = some field ↔
            ∀ other ∈ before, other.shadows byte = false) ∧
          ∀ other ∈ before, other.firstBit + other.bitCount ≤ 8 * byte) ∧
      ∀ byte, (aggregate .struct name members).fieldAtOffset? byte = none ↔
        ∀ field ∈ placedFields .struct members, field.offset? ≠ some byte ∧ field.holds byte = false := by
  have wellPlaced := wellPlaced_placedFields known
  have answer (byte : Nat) : (aggregate .struct name members).fieldAtOffset? byte =
      (placedFields .struct members).find? (·.occupies byte) := rfl
  refine ⟨fun before field after byte split ordinary inside => ?_, fun byte => ?_⟩
  · rw [answer]
    refine ⟨wellPlaced.find?_occupies split ordinary inside,
      wellPlaced.find?_occupies_eq_self_iff split ordinary inside, fun other present => ?_⟩
    exact (wellPlaced.ne_and_end_le_of_earlier split ordinary inside present).2
  · rw [answer, List.find?_eq_none]
    refine forall_congr' fun field => forall_congr' fun _ => ?_
    rw [Field.occupies_iff, not_or, Bool.not_eq_true]

/-- A bitfield of three bits with a character in the next byte of its storage unit, then an array of no
elements where a number starts. -/
def overlaidMembers : List Member :=
  [.ofType none (.bitfield 3), .ofType (some "mark") (.scalar .char),
    .ofType none (.array 0 (.scalar .int)), .ofType (some "count") (.scalar .int)]

/-- The character, behind the bitfield. -/
def overlaidMark : Field := ⟨.ofType (some "mark") (.scalar .char), some ⟨1, none⟩⟩

/-- The number, where the array of no elements starts as well. -/
def overlaidCount : Field := ⟨.ofType (some "count") (.scalar .int), some ⟨4, none⟩⟩

/-- Every byte of the number but the first is answered by the number, and the byte of the character by the
bitfield. -/
theorem occupant_found_iff_not_shadowed_overlaid :
    (aggregate .struct none overlaidMembers).layout? = some ⟨8, 4⟩ ∧
      overlaidMark.width? = none ∧ overlaidMark.holds 1 = true ∧
      (aggregate .struct none overlaidMembers).fieldAtOffset? 1 ≠ some overlaidMark ∧
      overlaidCount.width? = none ∧ overlaidCount.holds 5 = true ∧
      (aggregate .struct none overlaidMembers).fieldAtOffset? 5 = some overlaidCount ∧
      (aggregate .struct none overlaidMembers).fieldAtOffset? 8 = none := by
  have known : (aggregate .struct none overlaidMembers).layout? = some ⟨8, 4⟩ := by decide
  obtain ⟨held, free⟩ := occupant_found_iff_not_shadowed none overlaidMembers _ known
  let fields := placedFields .struct overlaidMembers
  have mark := (held (fields.take 1) overlaidMark (fields.drop 2) 1 rfl rfl rfl).2.1
  have count := (held (fields.take 3) overlaidCount (fields.drop 4) 5 rfl rfl rfl).2.1
  refine ⟨known, rfl, rfl, fun same => ?_, rfl, rfl, count.mpr (by decide), (free 8).mpr (by decide)⟩
  exact absurd (mark.mp same) (by decide)

/-- Two ordinary fields that are not answered at a byte of theirs: the bitfield before the first ends within
the byte before, and the array before the second has no bytes. -/
theorem shadowed_occupants_missed :
    (aggregate .struct none overlaidMembers).layout? = some ⟨8, 4⟩ ∧
      ((aggregate .struct none overlaidMembers).fieldAt? 1 = some overlaidMark ∧
        overlaidMark.width? = none ∧ overlaidMark.holds 1 = true ∧
        (aggregate .struct none overlaidMembers).fieldAtOffset? 1 ≠ some overlaidMark) ∧
      (aggregate .struct none overlaidMembers).fieldAt? 3 = some overlaidCount ∧
      overlaidCount.width? = none ∧ overlaidCount.holds 4 = true ∧
      (aggregate .struct none overlaidMembers).fieldAtOffset? 4 ≠ some overlaidCount := by
  refine ⟨by decide, ⟨rfl, rfl, rfl, fun same => ?_⟩, rfl, rfl, rfl, fun same => ?_⟩
  · exact absurd (congrArg (Option.map Field.position) same) (by decide)
  · exact absurd (congrArg (Option.map Field.byteCount) same) (by decide)

end CType

end ForeignCall
