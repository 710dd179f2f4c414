import ChannelConcat.Proofs.Words
import ChannelConcat.Scalar
import ChannelConcat.Selection

/-!
# Lanes of a vector

What the clamps do to the bytes of a vector, lane by lane. Main statements: `length_onBlock` says
that a block keeps its length between load and store, and `onBlock_flatMap_toBytes` that a block of
elements becomes the block of the clamped elements.
-/

namespace ChannelConcat

/-- A lane-wise operation gives the whole lanes of its first vector. -/
theorem length_lanewise (n : Nat) (f : BitVec (8 * n) → BitVec (8 * n) → BitVec (8 * n))
    (first second : List Byte) : (lanewise n f first second).length = first.length / n * n := by
  simp [lanewise, List.length_flatMap, List.map_const']

namespace Selection

/-- A block of whole lanes keeps its length between load and store. -/
theorem length_onBlock (selection : Selection) {block : List Byte} (h : 4 ∣ block.length) :
    (selection.onBlock block).length = block.length := by
  unfold onBlock
  split
  · rename_i clamp _
    cases clamp with
    | maxI8 =>
        rw [Clamp.apply, length_lanewise]
        exact Nat.div_mul_cancel (Nat.one_dvd _)
    | maxI32 =>
        rw [Clamp.apply, length_lanewise]
        exact Nat.div_mul_cancel h
    | maxF32 =>
        rw [Clamp.apply, length_lanewise, List.length_replicate]
        exact Nat.div_mul_cancel h
  · rfl

end Selection

/-- A vector width is selected by its number of bits. -/
theorem VectorWidth.ofBits_eq_ok_iff {bits : Nat} {width : VectorWidth} :
    VectorWidth.ofBits bits = .ok width ↔ bits = width.bits := by
  unfold ofBits
  constructor
  · intro h
    split at h
    · cases h
      assumption
    · split at h
      · cases h
        assumption
      · split at h
        · cases h
          assumption
        · cases h
  · rintro rfl
    cases width <;> rfl

/-- Instructions are selected by the number of bits of a vector and, where values are clamped, by
the element type. -/
theorem select_eq_ok_iff {bits : Nat} {elem : ElemType} {relu : Bool} {selection : Selection} :
    select bits elem relu = .ok selection ↔
      bits = selection.width.bits ∧
        if relu then ∃ clamp, Clamp.ofElem elem = .ok clamp ∧ selection.clamp = some clamp
        else selection.clamp = none := by
  obtain ⟨width, clamp⟩ := selection
  rw [← VectorWidth.ofBits_eq_ok_iff]
  unfold select
  cases hwidth : VectorWidth.ofBits bits with
  | error fault => simp [bind, Except.bind]
  | ok found =>
      cases relu with
      | false => simp [bind, Except.bind, pure, Except.pure, eq_comm]
      | true =>
          cases hclamp : Clamp.ofElem elem with
          | error fault => simp [bind, Except.bind]
          | ok found => simp [bind, Except.bind, pure, Except.pure, eq_comm]

/-- A vector has whole lanes. -/
theorem VectorWidth.four_dvd_bytes (width : VectorWidth) : 4 ∣ width.bytes := by
  cases width <;> decide

/-! ## Lanes that hold words -/

/-- A lane-wise operation on the bytes of words gives the bytes of the results. -/
theorem lanewise_flatMap_toBytes {n : Nat} (hn : 0 < n)
    (f : BitVec (8 * n) → BitVec (8 * n) → BitVec (8 * n)) {first second : List (BitVec (8 * n))}
    (hlength : first.length = second.length) :
    lanewise n f (first.flatMap (Word.toBytes n)) (second.flatMap (Word.toBytes n)) =
      (List.zipWith f first second).flatMap (Word.toBytes n) := by
  rw [lanewise, length_flatMap_toBytes, Nat.mul_div_cancel _ hn]
  refine congrArg List.flatten (?_ : (List.range first.length).map _ = List.map _ _)
  apply List.ext_getElem
  · simp [hlength]
  · intro k hk hk'
    rw [List.length_map, List.length_range] at hk
    rw [List.getElem_map, List.getElem_map, List.getElem_range, List.getElem_zipWith,
      take_drop_flatMap_toBytes_one hk, take_drop_flatMap_toBytes_one (hlength ▸ hk),
      Word.ofBytes_toBytes, Word.ofBytes_toBytes]

/-- Combining every word with one and the same word changes each of them by one function. -/
theorem zipWith_replicate {α : Type} (f : α → α → α) (value : α) (items : List α) :
    List.zipWith f items (List.replicate items.length value) = items.map (f · value) ∧
      List.zipWith f (List.replicate items.length value) items = items.map (f value) := by
  induction items with
  | nil => exact ⟨rfl, rfl⟩
  | cons item items ih => exact ⟨congrArg _ ih.1, congrArg _ ih.2⟩

/-- The clamp of one lane against zero. -/
def Clamp.onLane : (clamp : Clamp) → BitVec (8 * clamp.laneBytes) → BitVec (8 * clamp.laneBytes)
  | maxI8, word => lane maxI8 word 0
  | maxI32, word => lane maxI32 word 0
  | maxF32, word => lane maxF32 0 word

/-- The clamp of a vector of words clamps each of them. -/
theorem Clamp.apply_flatMap_toBytes (clamp : Clamp) (words : List (BitVec (8 * clamp.laneBytes))) :
    clamp.apply (List.replicate (words.length * clamp.laneBytes) 0)
        (words.flatMap (Word.toBytes clamp.laneBytes)) =
      (words.map clamp.onLane).flatMap (Word.toBytes clamp.laneBytes) := by
  rw [replicate_zero_eq_flatMap]
  -- The maximum of numbers is the only clamp with the zeros in front.
  cases clamp with
  | maxI8 | maxI32 =>
      rw [apply, lanewise_flatMap_toBytes (by decide) _ (by simp), (zipWith_replicate ..).1]
      rfl
  | maxF32 =>
      rw [apply, lanewise_flatMap_toBytes (by decide) _ (by simp), (zipWith_replicate ..).2]
      rfl

/-- The maximum of signed words with zero is zero exactly for the words with a sign. -/
theorem ite_slt_zero {n : Nat} (word : BitVec n) :
    (if word.slt 0 then 0 else word) = if word.msb then 0 else word := by
  rw [BitVec.ofNat_eq_ofNat, BitVec.slt_zero_eq_msb]

/-- The selected instructions clamp a block of elements as each element is clamped, if they clamp at
all. -/
theorem Selection.onBlock_flatMap_toBytes {bits : Nat} {scalar : Scalar} {relu : Bool}
    {selection : Selection} (h : select bits scalar.elem relu = .ok selection)
    (values : List scalar.Value) :
    selection.onBlock (values.flatMap (Word.toBytes scalar.bytes)) =
      (values.map (if relu then scalar.clamp else id)).flatMap (Word.toBytes scalar.bytes) := by
  obtain ⟨-, hclamp⟩ := select_eq_ok_iff.1 h
  cases relu with
  | false =>
      rw [if_neg Bool.false_ne_true] at hclamp ⊢
      rw [onBlock, hclamp, List.map_id]
  | true =>
      rw [if_pos rfl] at hclamp ⊢
      obtain ⟨clamp, helem, hclamp⟩ := hclamp
      rw [onBlock, hclamp]
      simp only
      rw [length_flatMap_toBytes]
      -- Bytes are clamped as signed ones, whatever the element type says.
      cases scalar with
      | s8 | u8 =>
          cases helem
          have hlane : Clamp.onLane .maxI8 = Scalar.clamp .s8 := funext ite_slt_zero
          exact hlane ▸ Clamp.apply_flatMap_toBytes .maxI8 values
      | s32 =>
          cases helem
          have hlane : Clamp.onLane .maxI32 = Scalar.clamp .s32 := funext ite_slt_zero
          exact hlane ▸ Clamp.apply_flatMap_toBytes .maxI32 values
      | f32 =>
          cases helem
          exact Clamp.apply_flatMap_toBytes .maxF32 values

end ChannelConcat
