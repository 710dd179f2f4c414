import ChannelConcat.Proofs.Counts
import ChannelConcat.Shape

/-!
# Shapes that fit

The shapes that pass the checks are described without an order: each input agrees with the output
beside its channels, all element counts are sizes, and the channels add up. Main statement:
`Shape.defect_eq_none_iff`.
-/

namespace ChannelConcat

/-- No input has a defect exactly if each of them, wherever it stands, has none. -/
theorem firstDefect_eq_none_iff {defect : Tensor → Nat → Option Refusal} {sound : Tensor → Prop}
    (h : ∀ input index, defect input index = none ↔ sound input) (inputs : List Tensor) :
    firstDefect defect inputs = none ↔ ∀ input ∈ inputs, sound input := by
  have hinputs : (∀ input ∈ inputs, sound input) ↔
      ∀ entry ∈ inputs.zipIdx, sound entry.1 := by
    rw [← List.forall_mem_map (f := Prod.fst), List.zipIdx_map_fst]
  rw [hinputs, firstDefect, List.findSome?_eq_none_iff]
  exact forall₂_congr fun entry _ => h entry.1 entry.2

/-- Among items that are not all sound there is a first that is not. -/
theorem exists_first_of_not_forall {α : Type} {sound : α → Prop} {items : List α}
    (h : ¬ ∀ item ∈ items, sound item) :
    ∃ before item rest, items = before ++ item :: rest ∧
      (∀ earlier ∈ before, sound earlier) ∧ ¬ sound item := by
  induction items with
  | nil => exact absurd (List.forall_mem_nil sound) h
  | cons item items ih =>
      by_cases hitem : sound item
      · obtain ⟨before, first, rest, rfl, hbefore, hfirst⟩ :=
          ih fun hitems => h (List.forall_mem_cons.2 ⟨hitem, hitems⟩)
        exact ⟨item :: before, first, rest, rfl, List.forall_mem_cons.2 ⟨hitem, hbefore⟩, hfirst⟩
      · exact ⟨[], item, items, rfl, List.forall_mem_nil sound, hitem⟩

/-- The number of an item is that of the items before it. -/
theorem zipIdx_append_cons {α : Type} (before : List α) (item : α) (rest : List α) :
    (before ++ item :: rest).zipIdx =
      before.zipIdx ++ (item, before.length) :: rest.zipIdx (before.length + 1) := by
  rw [List.zipIdx_append, List.zipIdx_cons, Nat.zero_add]

/-- Numbered items are split at an entry where the items are split at its item. -/
theorem exists_split_of_zipIdx {α : Type} {items : List α} {front back : List (α × Nat)}
    {entry : α × Nat} (h : items.zipIdx = front ++ entry :: back) :
    ∃ before rest, items = before ++ entry.1 :: rest ∧ front = before.zipIdx ∧
      entry.2 = before.length := by
  obtain ⟨before, tail, rfl, hfront, htail⟩ := List.zipIdx_eq_append_iff.1 h
  obtain ⟨item, rest, rfl, rfl, -⟩ := List.zipIdx_eq_cons_iff.1 htail.symm
  exact ⟨before, rest, rfl, hfront, Nat.zero_add _⟩

/-- Inputs have the defect of the first of them that has one: those before it have none. -/
theorem firstDefect_eq_some_iff {defect : Tensor → Nat → Option Refusal} {sound : Tensor → Prop}
    (h : ∀ input index, defect input index = none ↔ sound input) {inputs : List Tensor}
    {cause : Refusal} :
    firstDefect defect inputs = some cause ↔
      ∃ before input rest, inputs = before ++ input :: rest ∧
        (∀ earlier ∈ before, sound earlier) ∧ defect input before.length = some cause := by
  simp only [← firstDefect_eq_none_iff h, firstDefect]
  constructor
  · intro hfirst
    obtain ⟨front, ⟨input, index⟩, back, hsplit, hdefect, hfront⟩ :=
      List.findSome?_eq_some_iff.1 hfirst
    obtain ⟨before, rest, rfl, rfl, rfl⟩ := exists_split_of_zipIdx hsplit
    exact ⟨before, input, rest, rfl, List.findSome?_eq_none_iff.2 hfront, hdefect⟩
  · rintro ⟨before, input, rest, rfl, hbefore, hdefect⟩
    rw [zipIdx_append_cons, List.findSome?_append, hbefore, Option.none_or]
    simp only [List.findSome?_cons, hdefect]

namespace Shape

/-- An input agrees with the output in everything but the channels. -/
structure Beside (output input : Tensor) : Prop where
  layout : input.layout = .interleaved
  elem : input.elem = output.elem
  spatial : input.dims.spatial = output.dims.spatial

/-- Inputs and an output that can be concatenated. -/
structure Fit (inputs : List Tensor) (output : Tensor) : Prop where
  layout : output.layout = .interleaved
  movable : output.elem.movable = true
  beside : ∀ input ∈ inputs, Beside output input
  inputElements : ∀ input ∈ inputs, input.positions * input.channels < Size.limit
  outputElements : output.positions * output.channels < Size.limit
  channels : (inputs.map Tensor.channels).sum = output.channels
  channels_lt : output.channels < Size.limit

/-- An output has no defect on its own exactly if its layout and element type are allowed. -/
theorem outputDefect_eq_none_iff {output : Tensor} :
    outputDefect output = none ↔ output.layout = .interleaved ∧ output.elem.movable = true := by
  unfold outputDefect
  split
  · simp_all
  · split <;> simp_all

/-- An input has no defect beside an output exactly if it agrees with it. -/
theorem inputDefect_eq_none_iff (output input : Tensor) (index : Nat) :
    inputDefect output input index = none ↔ Beside output input := by
  unfold inputDefect
  constructor
  · intro h
    split at h
    · cases h
    · split at h
      · cases h
      · split at h
        · cases h
        · rename_i hlayout helem hspatial
          exact ⟨Decidable.not_not.1 hlayout, Decidable.not_not.1 helem,
            Decidable.not_not.1 hspatial⟩
  · rintro ⟨hlayout, helem, hspatial⟩
    rw [if_neg (not_not_intro hlayout), if_neg (not_not_intro helem),
      if_neg (not_not_intro hspatial)]

/-- The element count of an input has no defect exactly if it is a size. -/
theorem inputCountDefect_eq_none_iff (input : Tensor) (index : Nat) :
    inputCountDefect input index = none ↔ input.positions * input.channels < Size.limit := by
  rw [← Tensor.elements?_ne_none_iff, inputCountDefect]
  split <;> simp_all

/-- The element count of an output has no defect exactly if it is a size. -/
theorem outputCountDefect_eq_none_iff {output : Tensor} :
    outputCountDefect output = none ↔ output.positions * output.channels < Size.limit := by
  rw [← Tensor.elements?_ne_none_iff, outputCountDefect]
  split <;> simp_all

/-- The channels have no defect exactly if those of the inputs add up to those of the output. -/
theorem channelsDefect_eq_none_iff {inputs : List Tensor} {output : Tensor} :
    channelsDefect inputs output = none ↔
      (inputs.map Tensor.channels).sum = output.channels ∧ output.channels < Size.limit := by
  rw [← Size.sum?_eq_some_iff, channelsDefect]
  split
  · simp_all
  · split <;> simp_all

/-- Shapes have no defect exactly if they fit. -/
theorem defect_eq_none_iff {inputs : List Tensor} {output : Tensor} :
    defect inputs output = none ↔ Fit inputs output := by
  simp only [defect, Option.or_eq_none_iff, outputDefect_eq_none_iff,
    firstDefect_eq_none_iff (inputDefect_eq_none_iff output),
    firstDefect_eq_none_iff inputCountDefect_eq_none_iff, outputCountDefect_eq_none_iff,
    channelsDefect_eq_none_iff]
  constructor
  · rintro ⟨⟨hlayout, hmovable⟩, hbeside, hinputs, houtput, hchannels, hlt⟩
    exact ⟨hlayout, hmovable, hbeside, hinputs, houtput, hchannels, hlt⟩
  · rintro ⟨hlayout, hmovable, hbeside, hinputs, houtput, hchannels, hlt⟩
    exact ⟨⟨hlayout, hmovable⟩, hbeside, hinputs, houtput, hchannels, hlt⟩

/-- Inputs beside an output count the same positions, in the same way. -/
theorem Beside.pixels_eq {output input : Tensor} (h : Beside output input) :
    input.pixels = output.pixels ∧ input.positions = output.positions := by
  have hspatial := h.spatial
  simp only [Dims.spatial, List.cons.injEq, and_true] at hspatial
  obtain ⟨hbatch, hheight, hwidth⟩ := hspatial
  simp only [Tensor.pixels, Tensor.positions, hbatch, hheight, hwidth, and_self]

end Shape

end ChannelConcat
