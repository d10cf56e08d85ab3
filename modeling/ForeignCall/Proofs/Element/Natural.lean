import ForeignCall.Call.Element
import ForeignCall.Proofs.Layout.Alignment

/-! # Natural layout of elements

The calling convention puts each element of a structure at the next multiple of its alignment
(`Element.offsetsFrom`). The elements collected for a structure are `IsNatural` if they fall on the
bytes that they were recorded for; then the recorded starts are the natural offsets
(`IsNatural.offsets_eq`) and the last stop is the natural size. Filling bytes and placing an element
behind the others keep that.
-/

namespace ForeignCall

namespace Element

/-- The offsets at which the calling convention puts further elements of a structure. -/
def offsetsFrom (part : Layout) : List Element → List Nat
  | [] => []
  | element :: elements =>
    roundUp part.size element.layout.alignment ::
      offsetsFrom (extendLayout part element.layout) elements

def offsets (elements : List Element) : List Nat := offsetsFrom .empty elements

theorem layoutFrom_append (part : Layout) (first second : List Element) :
    layoutFrom part (first ++ second) = layoutFrom (layoutFrom part first) second := by
  induction first generalizing part with
  | nil => rfl
  | cons element first ih => exact ih (extendLayout part element.layout)

theorem offsetsFrom_append (part : Layout) (first second : List Element) :
    offsetsFrom part (first ++ second) =
      offsetsFrom part first ++ offsetsFrom (layoutFrom part first) second := by
  induction first generalizing part with
  | nil => rfl
  | cons element first ih =>
    simp only [List.cons_append, offsetsFrom, layoutFrom, ih]

end Element

namespace Runs

variable {runs : Runs}

/-- The elements in the order of their bytes. -/
def elements (runs : Runs) : List Element := runs.reverse.map (·.element)

/-- The layout of the elements before the end is rounded up. -/
def layout (runs : Runs) : Layout := Element.layoutFrom .empty runs.elements

theorem elements_cons (run : Run) (runs : Runs) :
    elements (run :: runs) = runs.elements ++ [run.element] := by
  simp [elements]

theorem layout_cons (run : Run) (runs : Runs) :
    layout (run :: runs) = Element.extendLayout runs.layout run.element.layout := by
  rw [layout, elements_cons, Element.layoutFrom_append]
  rfl

theorem alignment_cons (run : Run) (runs : Runs) :
    (layout (run :: runs)).alignment = max runs.layout.alignment run.element.layout.alignment := by
  rw [layout_cons]
  rfl

theorem one_le_alignment (runs : Runs) : 1 ≤ runs.layout.alignment := by
  induction runs with
  | nil => exact Nat.le_refl 1
  | cons run runs ih =>
    rw [alignment_cons]
    exact Nat.le_trans ih (Nat.le_max_left _ _)

/-- Elements of sound layouts, each recorded where the calling convention puts it. -/
def IsNatural : Runs → Prop
  | [] => True
  | run :: runs =>
    IsNatural runs ∧ run.element.layout.IsSound ∧
      run.start = roundUp (stop runs) run.element.layout.alignment ∧
      run.stop = run.start + run.element.layout.size

theorem isNatural_nil : IsNatural [] := trivial

/-- An element placed at a multiple of its alignment up to which only padding is left. -/
theorem IsNatural.cons {offset : Nat} {element : Element} (natural : runs.IsNatural)
    (sound : element.layout.IsSound) (next : roundUp (stop runs) element.layout.alignment = offset) :
    IsNatural (⟨offset, offset + element.layout.size, element⟩ :: runs) :=
  ⟨natural, sound, next.symm, rfl⟩

theorem IsNatural.size_eq (natural : runs.IsNatural) : runs.layout.size = stop runs := by
  induction runs with
  | nil => rfl
  | cons run runs ih =>
    obtain ⟨natural, _, start, stop_eq⟩ := natural
    rw [layout_cons, Element.extendLayout, ih natural, stop, stop_eq, start]

/-- The recorded starts are the natural offsets. -/
theorem IsNatural.offsets_eq (natural : runs.IsNatural) :
    Element.offsets runs.elements = runs.reverse.map (·.start) := by
  induction runs with
  | nil => rfl
  | cons run runs ih =>
    have size_eq := IsNatural.size_eq natural.1
    obtain ⟨natural, _, start, _⟩ := natural
    have last : Element.offsetsFrom (layout runs) [run.element] = [run.start] := by
      rw [Element.offsetsFrom, size_eq, start, Element.offsetsFrom]
    have before : Element.offsetsFrom .empty (elements runs) = runs.reverse.map (·.start) :=
      ih natural
    rw [Element.offsets, elements_cons, Element.offsetsFrom_append, before]
    change _ ++ Element.offsetsFrom (layout runs) [run.element] = _
    rw [last, List.reverse_cons, List.map_append, List.map_singleton]

/-- The first and the last byte of a run lie at multiples of its alignment. -/
theorem IsNatural.aligned {run : Run} (natural : IsNatural (run :: runs)) :
    run.element.layout.alignment ∣ run.start ∧ run.element.layout.alignment ∣ run.stop := by
  obtain ⟨_, sound, start, stop_eq⟩ := natural
  have aligned : run.element.layout.alignment ∣ run.start := start ▸ dvd_roundUp _ _
  exact ⟨aligned, stop_eq ▸ Nat.dvd_add aligned sound.dvd_size⟩

theorem IsNatural.stop_le {run : Run} (natural : IsNatural (run :: runs)) :
    stop runs ≤ run.start ∧ run.start ≤ run.stop := by
  obtain ⟨_, sound, start, stop_eq⟩ := natural
  constructor
  · rw [start]
    exact le_roundUp _ sound.alignment.pos
  · rw [stop_eq]
    exact Nat.le_add_right _ _

/-! ## Bytes -/

theorem isSound_byte : Element.byte.layout.IsSound := by
  constructor <;> decide

/-- Bytes go on where the elements end, and ask for no alignment. -/
theorem IsNatural.fill {target : Nat} (natural : runs.IsNatural) (le : stop runs ≤ target) :
    (runs.fill (stop runs) target).IsNatural ∧ stop (runs.fill (stop runs) target) = target ∧
      (runs.fill (stop runs) target).layout.alignment = runs.layout.alignment := by
  obtain ⟨count, rfl⟩ := Nat.le.dest le
  rw [Runs.fill, Nat.add_sub_cancel_left]
  induction count with
  | zero => exact ⟨natural, rfl, rfl⟩
  | succ count ih =>
    obtain ⟨before, stop_eq, alignment⟩ := ih (Nat.le_add_right _ _)
    rw [List.range_succ, List.foldl_append, List.foldl_cons, List.foldl_nil]
    refine ⟨before.cons isSound_byte ?_, rfl, ?_⟩
    · rw [stop_eq]
      exact roundUp_of_dvd Nat.one_pos (Nat.one_dvd _)
    · rw [alignment_cons, alignment]
      exact Nat.max_eq_left (one_le_alignment runs)

/-! ## Elements behind the others -/

/-- An element behind the others falls on its offset, with or without bytes that fill the gap. -/
theorem IsNatural.place {offset : Nat} {element : Element} (natural : runs.IsNatural)
    (sound : element.layout.IsSound) (positive : 0 < element.layout.size)
    (aligned : element.layout.alignment ∣ offset) (le : stop runs ≤ offset) :
    (runs.place offset element.layout element).IsNatural ∧
      stop (runs.place offset element.layout element) = offset + element.layout.size ∧
      (runs.place offset element.layout element).layout.alignment =
        max runs.layout.alignment element.layout.alignment := by
  have uncovered : ¬offset + element.layout.size ≤ stop runs := by omega
  have unshared : ¬offset < stop runs := by omega
  rw [Runs.place, if_neg uncovered, if_neg unshared]
  split
  next explained => exact ⟨natural.cons sound explained, rfl, alignment_cons _ _⟩
  next =>
    obtain ⟨filled, stop_eq, alignment⟩ := natural.fill le
    refine ⟨filled.cons sound ?_, rfl, ?_⟩
    · rw [stop_eq]
      exact roundUp_of_dvd sound.alignment.pos aligned
    · rw [alignment_cons, alignment]

/-! ## Storage units -/

/-- Something aligned at most as a unit is not aligned as the unit if it starts inside it. -/
theorem lt_of_inside {alignment unit start offset : Nat} (sound : IsAlignment alignment)
    (isUnit : unit = 4 ∨ unit = 8) (unitAligned : unit ∣ start) (aligned : alignment ∣ offset)
    (after : start < offset) (before : offset < start + unit) : alignment < unit := by
  have unitSound : IsAlignment unit := by rcases isUnit with rfl | rfl <;> decide
  rcases Nat.lt_or_ge alignment unit with less | le
  · exact less
  · have multiple : unit ∣ offset := Nat.dvd_trans (unitSound.dvd_of_le sound le) aligned
    rcases isUnit with rfl | rfl <;> omega

/-- The elements that a storage unit takes away are aligned less strictly than the unit. -/
theorem IsNatural.dropWhile {offset unit : Nat} (natural : runs.IsNatural)
    (isUnit : unit = 4 ∨ unit = 8) (aligned : unit ∣ offset) (below : stop runs < offset + unit) :
    IsNatural (runs.dropWhile (offset < ·.stop)) ∧
      stop (runs.dropWhile (offset < ·.stop)) ≤ offset ∧
      max (layout (runs.dropWhile (offset < ·.stop))).alignment unit =
        max runs.layout.alignment unit := by
  induction runs with
  | nil => exact ⟨trivial, Nat.zero_le _, rfl⟩
  | cons run runs ih =>
    by_cases reaches : offset < run.stop
    -- The run ends at a multiple of its alignment, and that lies inside the unit.
    · have further := natural.stop_le
      have small := lt_of_inside natural.2.1.alignment isUnit aligned natural.aligned.2 reaches below
      rw [List.dropWhile_cons_of_pos (by simpa using reaches)]
      obtain ⟨kept, stop_le, alignment⟩ := ih natural.1 (by simp only [stop] at below; omega)
      refine ⟨kept, stop_le, ?_⟩
      rw [alignment, alignment_cons]
      omega
    · rw [List.dropWhile_cons_of_neg (by simpa using reaches)]
      exact ⟨natural, Nat.le_of_not_lt reaches, rfl⟩

theorem isSound_unit {unit : Nat} (isUnit : unit = 4 ∨ unit = 8) :
    (Element.integer false unit).layout.IsSound := by
  rcases isUnit with rfl | rfl <;> constructor <;> decide

/-- A storage unit that reaches beyond the elements falls on its offset. -/
theorem IsNatural.placeUnit {offset unit : Nat} (natural : runs.IsNatural)
    (isUnit : unit = 4 ∨ unit = 8) (aligned : unit ∣ offset) (below : stop runs < offset + unit) :
    (runs.placeUnit offset unit).IsNatural ∧ stop (runs.placeUnit offset unit) = offset + unit ∧
      (runs.placeUnit offset unit).layout.alignment = max runs.layout.alignment unit := by
  obtain ⟨kept, stop_le, alignment⟩ := natural.dropWhile isUnit aligned below
  have positive : 0 < unit := by rcases isUnit with rfl | rfl <;> decide
  rw [Runs.placeUnit, if_neg (Nat.not_le_of_lt below), ← alignment]
  generalize List.dropWhile (fun run => decide (offset < run.stop)) runs = before at kept stop_le ⊢
  dsimp only
  split
  · obtain ⟨filled, stop_eq, filledAlignment⟩ := kept.fill stop_le
    rw [← filledAlignment]
    exact filled.place (isSound_unit isUnit) positive aligned (Nat.le_of_eq stop_eq)
  · exact kept.place (isSound_unit isUnit) positive aligned stop_le

end Runs

end ForeignCall
