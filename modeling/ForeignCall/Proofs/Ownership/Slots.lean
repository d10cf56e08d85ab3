import ForeignCall.Proofs.Ownership.Balance
import ForeignCall.Proofs.Value.Place

/-! # Owned slots

Ownership is stated for a type, for an element and for a field. Here the three are one: the owned
slots of a value are those of a part, moved to the part's offset, among others that have no bit in
common with the part (`Value.ownedSlots_split`).
-/

namespace ForeignCall

variable {α β : Type}

/-- The owned slots of a field, counted from the start of its structure. -/
def Field.placedSlots (field : Field) : List Nat :=
  match field.offset? with
  | some offset => field.ownedSlots.map (offset + ·)
  | none => []

/-- The parts of a list's entries, split at one entry. -/
theorem flatMap_split {entries : List α} {index : Nat} {entry : α}
    (present : entries[index]? = some entry) (parts : α → List β) :
    ∃ before after, entries.flatMap parts = before ++ parts entry ++ after ∧
      ∀ part, part ∈ before ∨ part ∈ after →
        ∃ other another, other ≠ index ∧ entries[other]? = some another ∧ part ∈ parts another := by
  obtain ⟨inside, entry_eq⟩ := List.getElem?_eq_some_iff.mp present
  refine ⟨(entries.take index).flatMap parts, (entries.drop (index + 1)).flatMap parts, ?_, ?_⟩
  · have rest : entries.drop index = entry :: entries.drop (index + 1) := by
      rw [List.drop_eq_getElem_cons inside, entry_eq]
    calc
      entries.flatMap parts = (entries.take index ++ entries.drop index).flatMap parts := by
        rw [List.take_append_drop]
      _ = _ := by rw [List.flatMap_append, rest, List.flatMap_cons, List.append_assoc]
  · intro part within
    rcases within with early | late
    · obtain ⟨another, among, isPart⟩ := List.mem_flatMap.mp early
      obtain ⟨other, found⟩ := List.mem_iff_getElem?.mp among
      rw [List.getElem?_take] at found
      split at found
      next below => exact ⟨other, another, Nat.ne_of_lt below, found, isPart⟩
      next => contradiction
    · obtain ⟨another, among, isPart⟩ := List.mem_flatMap.mp late
      obtain ⟨other, found⟩ := List.mem_iff_getElem?.mp among
      rw [List.getElem?_drop] at found
      exact ⟨index + 1 + other, another, by omega, found, isPart⟩

theorem repeatSlots_eq_flatMap (stride count : Nat) (slots : List Nat) :
    repeatSlots stride count slots =
      (List.range count).flatMap fun index => slots.map (stride * index + ·) := by
  unfold repeatSlots
  split
  next empty => simp [List.isEmpty_iff.mp empty]
  next => simp only [Nat.mul_comm]

namespace CType

theorem ownedSlots_unqualified (type : CType) : type.unqualified.ownedSlots = type.ownedSlots := by
  fun_induction unqualified type with
  | case1 inner ih => rw [ih, ownedSlots]
  | case2 inner ih => rw [ih, ownedSlots]
  | case3 => rfl

theorem placeSlots_eq_flatMap (members : List Member) (positions : List (Option Position)) :
    placeSlots positions (memberSlotLists members) =
      (members.zipWith (fun member position => ({ member with position } : Field)) positions).flatMap
        Field.placedSlots := by
  induction members generalizing positions with
  | nil => simp [placeSlots, memberSlotLists]
  | cons member members ih =>
    cases positions with
    | nil => rfl
    | cons position positions =>
      obtain ⟨label, type, retention⟩ := member
      have rest := ih positions
      rw [placeSlots] at rest ⊢
      rw [memberSlotLists, List.zip_cons_cons, List.flatMap_cons, rest, List.zipWith_cons_cons,
        List.flatMap_cons]
      cases position <;> rfl

/-- A structure owns what its fields do. -/
theorem ownedSlots_struct (name : Option String) (members : List Member) :
    (aggregate .struct name members).ownedSlots =
      (placedFields .struct members).flatMap Field.placedSlots := by
  rw [ownedSlots]
  exact placeSlots_eq_flatMap members _

end CType

/-- A reference of any kind is as large as a pointer. -/
theorem CType.layout?_of_isObject {type : CType} (counted : type.unqualified.isObject = true) :
    type.layout? = some .pointer := by
  rw [← layout?_unqualified]
  cases kind : type.unqualified <;> simp_all [isObject, layout?]

/-! ## References lie inside -/

/-- The slots of a type lie inside its values. -/
def OwnsInside (type : CType) (slots : List Nat) : Prop :=
  ∀ layout, type.layout? = some layout → ∀ slot ∈ slots, slot + pointerSize ≤ layout.size

/-- The slots of a member lie inside it if those of its type do. -/
theorem OwnsInside.memberSlots {type : CType} {slots : List Nat} (inside : OwnsInside type slots)
    (retention : Retention) : OwnsInside type (memberSlots type retention slots) := by
  intro layout known slot present
  unfold ForeignCall.memberSlots at present
  split at present
  next counted =>
    have pointer : layout = .pointer := Option.some.inj (known.symm.trans (CType.layout?_of_isObject counted))
    split at present
    · rw [List.mem_singleton.mp present, pointer]
      exact Nat.le_refl _
    · contradiction
  next => exact inside layout known slot present

theorem OwnsInside.repeatSlots {element : CType} {slots : List Nat} {single : Layout}
    (inside : OwnsInside element slots) (found : element.layout? = some single) (count : Nat) :
    OwnsInside (.array count element) (repeatSlots single.size count slots) := by
  intro layout known slot present
  rw [CType.layout?, found] at known
  obtain ⟨size, fits, rfl⟩ := Option.map_eq_some_iff.mp known
  obtain ⟨_, rfl⟩ := fits?_eq_some_iff.mp fits
  rw [repeatSlots_eq_flatMap] at present
  obtain ⟨index, below, among⟩ := List.mem_flatMap.mp present
  obtain ⟨inner, isSlot, rfl⟩ := List.mem_map.mp among
  have within := inside single found inner isSlot
  rw [Nat.add_assoc]
  exact stride_end_le (List.mem_range.mp below) within

namespace Field

variable {field : Field}

/-- A bitfield owns nothing. -/
theorem ownedSlots_of_width {width : Nat} (isBits : field.width? = some width) :
    field.ownedSlots = [] := by
  rw [ownedSlots, type_of_width isBits]
  rfl

/-- A reference of a placed field lies in the field's bytes. -/
theorem placedSlots_inside {offset size slot : Nat} (placed : field.PlacedAt offset size)
    (inside : OwnsInside field.type field.type.ownedSlots) (present : slot ∈ field.placedSlots) :
    field.width? = none ∧ offset ≤ slot ∧ slot + pointerSize ≤ offset + field.byteCount := by
  simp only [placedSlots, placed.offset_eq] at present
  obtain ⟨inner, isSlot, rfl⟩ := List.mem_map.mp present
  have ordinary : field.width? = none := by
    cases isBits : field.width? with
    | none => rfl
    | some width =>
      rw [ownedSlots_of_width isBits] at isSlot
      contradiction
  obtain ⟨layout, known⟩ := Option.isSome_iff_exists.mp placed.isSized
  have within := inside.memberSlots field.retention layout known inner isSlot
  have count : field.byteCount = layout.size := by simp [byteCount, known]
  exact ⟨ordinary, Nat.le_add_right _ _, by omega⟩

end Field

namespace CType

theorem ownsInside_struct {name : Option String} {members : List Member}
    (inside : ∀ member ∈ members, OwnsInside member.type member.type.ownedSlots) :
    OwnsInside (aggregate .struct name members) (aggregate .struct name members).ownedSlots := by
  intro layout known slot present
  rw [ownedSlots_struct] at present
  obtain ⟨field, isField, among⟩ := List.mem_flatMap.mp present
  obtain ⟨offset, placed⟩ := (wellPlaced_placedFields known).placed field isField
  have isMember : field.toMember ∈ members := by
    rw [← map_toMember_placedFields .struct members]
    exact List.mem_map_of_mem isField
  obtain ⟨ordinary, _, within⟩ := Field.placedSlots_inside placed (inside _ isMember) among
  have contained := placed.contained (by simp [ordinary])
  omega

mutual

/-- The references that a type owns lie inside its values. -/
theorem ownsInside_ownedSlots : (type : CType) → OwnsInside type type.ownedSlots
  | object _ _ | block _ => by
    intro layout known slot present
    simp only [layout?, Option.some.injEq] at known
    rw [ownedSlots, List.mem_singleton] at present
    rw [← known, present]
    exact Nat.le_refl _
  | wrapped .const inner | wrapped .atomic inner => by
    intro layout known
    rw [ownedSlots]
    exact ownsInside_ownedSlots inner layout (by simpa only [layout?] using known)
  | array count element => by
    rw [ownedSlots]
    cases found : element.layout? with
    | none =>
      intro _ _ _ present
      contradiction
    | some single => exact (ownsInside_ownedSlots element).repeatSlots found count
  | aggregate .struct name members => ownsInside_struct (ownsInside_members members)
  | unknown | void | scalar _ | classRef | wrapped .pointer _ | wrapped .complex _
  | wrapped .vector _ | bitfield _ | aggregate .union _ _ | forward _ _ => by
    intro _ _ _ present
    simp [ownedSlots] at present

theorem ownsInside_members : (members : List Member) →
    ∀ member ∈ members, OwnsInside member.type member.type.ownedSlots
  | [], _, present => by contradiction
  | ⟨_, type, _⟩ :: members, member, present => by
    rcases List.mem_cons.mp present with rfl | present
    · exact ownsInside_ownedSlots type
    · exact ownsInside_members members member present

end

end CType

end ForeignCall
