import ForeignCall.Proofs.Layout.Exact

/-! # Flexible tails

An array of no elements at the end of a structure is placed like any member, but takes no part in the
alignment of the structure. Where members lie does not depend on which of them is the last, so one more
of these arrays moves none of them (`Cursor.placeAll_append`). The member that was the last may be such an
array as well; it then counts for the alignment (`exemptAlignment`), and it has left the end of the
structure at a multiple of its own (`Cursor.lastExempt_spec`). The size is rounded up from where the tail
begins. So the tail costs nothing as long as it begins within the structure, as it does if its elements are
aligned no more strictly than the structure, and the alignment stays.
-/

namespace ForeignCall

/-- The alignment that a member keeps to itself when it is the last one. -/
def Footprint.exemptAlignment : Footprint → Nat
  | emptyArray alignment => alignment
  | _ => 0

namespace Cursor

variable {cursor next final : Cursor} {member tail : Footprint} {members : List Footprint} {layout : Layout}

/-- A cursor of a structure with one more alignment to observe. -/
def alignedTo (cursor : Cursor) (alignment : Nat) : Cursor :=
  { cursor with alignment := max cursor.alignment alignment }

theorem alignedTo_zero (cursor : Cursor) : cursor.alignedTo 0 = cursor := by
  rw [alignedTo, Nat.max_zero]

/-- A member that is not the last one lies where it would as the last one. -/
theorem place_false (cursor : Cursor) (member : Footprint) :
    cursor.place false member =
      ((cursor.place true member).1,
        (cursor.place true member).2.map (·.alignedTo member.exemptAlignment)) := by
  cases member with
  | emptyArray alignment =>
    simp only [place]
    cases cursor.nextMultiple? alignment <;> rfl
  | unsized => rfl
  | bits width =>
    have same : cursor.place false (.bits width) = cursor.place true (.bits width) := by cases width <;> rfl
    simp [same, Footprint.exemptAlignment, alignedTo_zero]
  | bytes layout => simp [place, Footprint.exemptAlignment, alignedTo_zero]

/-- The alignment that the last of some members keeps to itself. -/
def lastExempt (members : List Footprint) : Nat :=
  (members.getLast?.map Footprint.exemptAlignment).getD 0

theorem lastExempt_cons_cons (member other : Footprint) (members : List Footprint) :
    lastExempt (member :: other :: members) = lastExempt (other :: members) := by
  rw [lastExempt, List.getLast?_cons_cons, lastExempt]

theorem place_emptyArray (cursor : Cursor) (alignment : Nat) :
    cursor.place true (.emptyArray alignment) =
      ((cursor.nextMultiple? alignment).map (⟨·, none⟩),
        (cursor.nextMultiple? alignment).map (⟨·, 0, cursor.alignment⟩)) := by
  simp only [place]
  cases cursor.nextMultiple? alignment <;> rfl

theorem placeAll_step {found : Option Position} (step : cursor.place members.isEmpty member = (found, some next)) :
    placeAll (some cursor) (member :: members) =
      (found :: (placeAll (some next) members).1, (placeAll (some next) members).2) := by
  rw [placeAll, step]

/-- One more member moves no other; the one that was the last counts for the alignment now. -/
theorem placeAll_append (tail : Footprint) (ends : (placeAll (some cursor) members).2 = some final) :
    placeAll (some cursor) (members ++ [tail]) =
      ((placeAll (some cursor) members).1 ++ [((final.alignedTo (lastExempt members)).place true tail).1],
        ((final.alignedTo (lastExempt members)).place true tail).2) := by
  induction members generalizing cursor with
  | nil =>
    cases ends
    simp [placeAll, lastExempt, alignedTo_zero]
  | cons member members ih =>
    obtain ⟨found, next, step, positions, rest⟩ := placeAll_cons ends
    rw [positions]
    cases members with
    | nil =>
      cases rest
      have alone : cursor.place true member = (found, some final) := step
      have first : cursor.place false member = (found, some (final.alignedTo member.exemptAlignment)) := by
        rw [place_false, alone]
        rfl
      exact placeAll_step first
    | cons other members =>
      have first : cursor.place (other :: members ++ [tail]).isEmpty member = (found, some next) := step
      rw [List.cons_append, placeAll_step first, ih rest, lastExempt_cons_cons]
      rfl

theorem byteEnd_of_emptyArray {isLast : Bool} {alignment : Nat} {found : Option Position}
    (placed : cursor.place isLast (.emptyArray alignment) = (found, some next)) :
    alignment ∣ next.byteEnd := by
  simp only [place] at placed
  split at placed
  next start begins =>
    cases placed
    rw [← nextMultiple_of_nextMultiple? begins]
    exact dvd_roundUp _ _
  next => simp at placed

/-- A tail that some members end with has left the cursor at a multiple of its alignment. -/
theorem lastExempt_spec (sound : ∀ member ∈ members, member.IsSound)
    (ends : (placeAll (some cursor) members).2 = some final) :
    lastExempt members = 0 ∨ IsAlignment (lastExempt members) ∧ lastExempt members ∣ final.byteEnd := by
  induction members generalizing cursor with
  | nil => exact .inl rfl
  | cons member members ih =>
    obtain ⟨found, next, step, _, rest⟩ := placeAll_cons ends
    cases members with
    | nil =>
      cases rest
      cases member with
      | emptyArray alignment =>
        exact .inr ⟨sound _ (List.mem_cons_self ..), byteEnd_of_emptyArray step⟩
      | unsized | bits | bytes => exact .inl rfl
    | cons other members =>
      rw [lastExempt_cons_cons]
      exact ih (fun other present => sound other (List.mem_cons_of_mem _ present)) rest

theorem size_of_layout? (known : final.layout? = some layout) :
    layout.size = roundUp final.byteEnd final.alignment := by
  rw [← (layout_of_layout? known).1]
  rfl

/-- A structure that ends with a tail is as large as its alignment asks for, also if the tail counts. -/
theorem alignedTo_spec {exempt : Nat} (valid : final.IsValid) (known : final.layout? = some layout)
    (spec : exempt = 0 ∨ IsAlignment exempt ∧ exempt ∣ final.byteEnd) :
    final.alignment ∣ max final.alignment exempt ∧ max final.alignment exempt ∣ layout.size := by
  have size := size_of_layout? known
  rcases Nat.le_total exempt final.alignment with le | le
  · rw [Nat.max_eq_left le, size]
    exact ⟨Nat.dvd_refl _, dvd_roundUp _ _⟩
  · have positive := valid.alignment.pos
    obtain ⟨aligned, multiple⟩ := spec.resolve_left (by omega)
    have divides := valid.alignment.dvd_of_le aligned le
    rw [Nat.max_eq_right le, size, roundUp_of_dvd positive (Nat.dvd_trans divides multiple)]
    exact ⟨divides, multiple⟩

/-- What ends at a whole byte only has to be rounded up. -/
theorem layout?_mk (start : Nat) {alignment : Nat} (positive : 0 < alignment) :
    Cursor.layout? ⟨start, 0, alignment⟩ =
      (fits? (roundUp start alignment)).map (⟨·, alignment⟩) := by
  have le := le_roundUp start positive
  simp only [Cursor.layout?, nextMultiple?, byteEnd?, if_true, Nat.add_zero]
  by_cases fits : start < addressLimit
  · rw [fits?_of_lt fits, Option.bind_some]
  · have exceeds : ¬roundUp start alignment < addressLimit := by omega
    simp only [fits?, if_neg fits, if_neg exceeds]
    rfl

/-- What follows a structure within its size leaves no more to round up than the structure did. -/
theorem roundUp_of_le {step start alignment : Nat} (known : final.layout? = some layout)
    (positive : 0 < final.alignment) (steps : 0 < step) (found : final.nextMultiple? step = some start)
    (within : start ≤ layout.size) (larger : 0 < alignment) (multiple : final.alignment ∣ alignment) :
    roundUp start alignment = roundUp layout.size alignment := by
  have begins : final.byteEnd ≤ start :=
    nextMultiple_of_nextMultiple? found ▸ final.byteEnd_le_nextMultiple steps
  have size := size_of_layout? known
  apply Nat.le_antisymm
  · exact roundUp_mono larger within
  · rw [size, roundUp_roundUp positive larger multiple]
    exact roundUp_mono larger begins

/-- What is aligned no more strictly than a structure follows it within its size. -/
theorem exists_nextMultiple? {step : Nat} (known : final.layout? = some layout) (valid : final.IsValid)
    (aligned : IsAlignment step) (le : step ≤ final.alignment) :
    ∃ start, final.nextMultiple? step = some start ∧ start ≤ layout.size := by
  obtain ⟨rfl, fits⟩ := layout_of_layout? known
  have within : final.nextMultiple step ≤ final.layout.size :=
    roundUp_le aligned.pos (Nat.dvd_trans (aligned.dvd_of_le valid.alignment le) (dvd_roundUp _ _))
      (final.byteEnd_le_nextMultiple valid.alignment.pos)
  exact ⟨_, nextMultiple?_of_lt aligned.pos (Nat.lt_of_le_of_lt within fits), within⟩

end Cursor

open Cursor

namespace CType

variable {name : Option String} {members : List Member} {tail : Member} {element : CType} {layout : Layout}

theorem footprints_append (members : List Member) (tail : Member) :
    footprints (members ++ [tail]) = footprints members ++ [tail.type.footprint] := by
  simp [footprints_eq_map]

theorem footprint_emptyArray (sized : element.isSized = true) :
    (array 0 element).footprint = .emptyArray element.alignment := by
  obtain ⟨layout, known⟩ := Option.isSome_iff_exists.mp sized
  simp [footprint, Footprint.ofType, layout?, known, Layout.repeated?, alignment, fits?, addressLimit]

/-- The alignment of an array of no elements at the end of some members, which does not count there. -/
def tailAlignment (members : List Member) : Nat := lastExempt (footprints members)

/-- What an array of no elements adds to a structure. -/
theorem aggregate_append (isTail : tail.type = .array 0 element) (sized : element.isSized = true)
    (known : (aggregate .struct name members).layout? = some layout) :
    ∃ final : Cursor, final.IsValid ∧ final.layout? = some layout ∧
      (tailAlignment members = 0 ∨
        IsAlignment (tailAlignment members) ∧ tailAlignment members ∣ final.byteEnd) ∧
      placedFields .struct (members ++ [tail]) = placedFields .struct members ++
        [⟨tail, (final.nextMultiple? element.alignment).map (⟨·, none⟩)⟩] ∧
      (aggregate .struct name (members ++ [tail])).layout? =
        (final.nextMultiple? element.alignment).bind fun start =>
          Cursor.layout? ⟨start, 0, max final.alignment (tailAlignment members)⟩ := by
  obtain ⟨final, ends, size⟩ := Option.bind_eq_some_iff.mp known
  have valid : final.IsValid := placeAll_isValid isValid_start (isSound_of_footprints members) ends
  have tailed := placeAll_append (.emptyArray element.alignment) ends
  rw [place_emptyArray, ← footprint_emptyArray sized, ← isTail, ← footprints_append] at tailed
  have length : (placeAll (some .start) (footprints members)).1.length = members.length := by
    rw [length_placeAll, footprints_eq_map, List.length_map]
  refine ⟨final, valid, size, lastExempt_spec (isSound_of_footprints members) ends, ?_, ?_⟩
  · simp only [placedFields, Placement.ofShape, Placement.ofStruct, tailed]
    rw [List.zipWith_append length.symm]
    rfl
  · simp only [layout?, Placement.ofShape, Placement.ofStruct, tailed, Option.bind_map]
    rfl

/-- A flexible tail moves no field before it. With the tail, a structure has its old alignment, or that of
an array of no elements which was its last member before, and its size is the tail's offset rounded up to
that. If the tail begins within the structure, the size is the old one. So the layout is the old one
exactly if the tail begins within the structure and no former tail is aligned more strictly. The tail
begins within the structure if its elements are aligned no more strictly. -/
theorem flexible_tail_costs_nothing_iff (name : Option String) (members : List Member) (tail : Member)
    (element : CType) (layout : Layout) (isTail : tail.type = .array 0 element)
    (sized : element.isSized = true) (known : (aggregate .struct name members).layout? = some layout) :
    ∃ position, placedFields .struct (members ++ [tail]) =
        placedFields .struct members ++ [⟨tail, position⟩] ∧
      (aggregate .struct name (members ++ [tail])).layout? = (position.bind fun place =>
        (fits? (roundUp place.offset (max layout.alignment (tailAlignment members)))).map
          (⟨·, max layout.alignment (tailAlignment members)⟩)) ∧
      (∀ place ∈ position, place.offset ≤ layout.size →
        (aggregate .struct name (members ++ [tail])).layout? =
          some ⟨layout.size, max layout.alignment (tailAlignment members)⟩) ∧
      ((aggregate .struct name (members ++ [tail])).layout? = some layout ↔
        (∃ place ∈ position, place.offset ≤ layout.size) ∧ tailAlignment members ≤ layout.alignment) ∧
      (element.alignment ≤ layout.alignment → ∃ place ∈ position, place.offset ≤ layout.size) := by
  obtain ⟨final, valid, size, former, fields, extension⟩ := aggregate_append isTail sized known
  obtain ⟨single, singleKnown⟩ := Option.isSome_iff_exists.mp sized
  have aligned : IsAlignment element.alignment := by
    simpa [alignment, singleKnown] using (isSound_of_layout? element singleKnown).alignment
  obtain ⟨_, alignment_eq, _⟩ := layout?_spec valid size
  rw [alignment_eq]
  have positive : 0 < max final.alignment (tailAlignment members) :=
    Nat.lt_of_lt_of_le valid.alignment.pos (Nat.le_max_left _ _)
  obtain ⟨divides, multiple⟩ := alignedTo_spec valid size former
  have rounded : (aggregate .struct name (members ++ [tail])).layout? =
      (final.nextMultiple? element.alignment).bind fun start =>
        (fits? (roundUp start (max final.alignment (tailAlignment members)))).map
          (⟨·, max final.alignment (tailAlignment members)⟩) := by
    rw [extension]
    congr 1
    funext start
    exact layout?_mk start positive
  have unchanged : ∀ start, final.nextMultiple? element.alignment = some start → start ≤ layout.size →
      (aggregate .struct name (members ++ [tail])).layout? =
        some ⟨layout.size, max final.alignment (tailAlignment members)⟩ := by
    intro start begins within
    have same := roundUp_of_le size valid.alignment.pos aligned.pos begins within positive divides
    rw [roundUp_of_dvd positive multiple] at same
    rw [rounded, begins, Option.bind_some, same, fits?_of_lt (layout_of_layout? size).2]
    rfl
  refine ⟨_, fields, ?_, ?_, ⟨?_, ?_⟩, ?_⟩
  · rw [rounded, Option.bind_map]
    rfl
  · intro place present within
    obtain ⟨start, begins, rfl⟩ := Option.map_eq_some_iff.mp present
    exact unchanged start begins within
  · intro same
    rw [rounded] at same
    obtain ⟨start, begins, same⟩ := Option.bind_eq_some_iff.mp same
    obtain ⟨extended, fits, rfl⟩ := Option.map_eq_some_iff.mp same
    obtain ⟨_, rfl⟩ := fits?_eq_some_iff.mp fits
    refine ⟨⟨⟨start, none⟩, by simp [begins], le_roundUp start positive⟩, ?_⟩
    have kept : max final.alignment (tailAlignment members) = final.alignment := alignment_eq
    omega
  · rintro ⟨⟨place, present, within⟩, le⟩
    obtain ⟨start, begins, rfl⟩ := Option.map_eq_some_iff.mp present
    rw [unchanged start begins within, Nat.max_eq_left le, ← alignment_eq]
  · intro le
    obtain ⟨start, begins, within⟩ := exists_nextMultiple? size valid aligned le
    exact ⟨⟨start, none⟩, by simp [begins], within⟩

/-- The tail shares the bytes behind a bitfield. -/
theorem flexible_tail_costs_nothing_bitfield :
    (aggregate .struct none [.ofType none (scalar .int), .ofType none (bitfield 3)]).layout? = some ⟨8, 4⟩ ∧
      (aggregate .struct none [.ofType none (scalar .int), .ofType none (bitfield 3),
        .ofType (some "data") (array 0 (scalar .short))]).layout? = some ⟨8, 4⟩ := by
  have known : (aggregate .struct none [.ofType none (scalar .int), .ofType none (bitfield 3)]).layout? =
      some ⟨8, 4⟩ := by decide
  obtain ⟨_, _, _, _, unchanged, begins⟩ := flexible_tail_costs_nothing_iff none _
    (.ofType (some "data") _) (scalar .short) _ rfl (by decide) known
  exact ⟨known, unchanged.mpr ⟨begins (by decide), by decide⟩⟩

/-- A tail that begins beyond the structure enlarges it, and leaves its alignment behind. -/
theorem tail_beyond_size_enlarges :
    (scalar .int).isSized = true ∧
      (aggregate .struct (some "S") [.ofType none (scalar .char)]).layout? = some ⟨1, 1⟩ ∧
      (aggregate .struct (some "S")
        [.ofType none (scalar .char), .ofType none (array 0 (scalar .int))]).layout? = some ⟨4, 1⟩ := by
  decide

/-- Of two arrays of no elements, only the last one is exempt. -/
example :
    (aggregate .struct (some "S")
      [.ofType none (array 4 (scalar .char)), .ofType none (array 0 (scalar .int)),
        .ofType none (array 0 (scalar .char))]).layout? = some ⟨4, 4⟩ := by
  decide

end CType

end ForeignCall
