import ChannelConcat.Call
import ChannelConcat.Proofs.Blocks
import ChannelConcat.Proofs.Program.Loops

/-!
# Clamps of vectors and of elements

The clamp instruction that is selected for an element type clamps each element that a vector holds,
and it works on every lane alone. What a clamped element is, is said here on its signed number, and
for single-precision numbers on the bits. Main definitions: `Scalar.IsClamped`,
`X86.State.clampedBlock`. Main statements: `Single.lt_zero_iff`, `Clamp.laneAt_apply`,
`clamped_vectors`.
-/

namespace ChannelConcat

open X86

/-! ## Numbers below zero -/

namespace Single

/-- The bits of a NaN are those past infinity, whatever the sign. -/
theorem isNaN_iff {bits : BitVec 32} : isNaN bits = true ↔ 0x7F800000 < magnitude bits :=
  decide_eq_true_iff

/-- A number is less than zero exactly if its bits are from those of the greatest number below zero
on up to those of the negative infinity. -/
theorem lt_zero_iff {bits : BitVec 32} :
    lt bits 0 = true ↔ 0x80000001 ≤ bits.toNat ∧ bits.toNat ≤ 0xFF800000 := by
  have hzero : lt bits 0 = (!isNaN bits && true && decide (key bits < 0)) := rfl
  have hbits := bits.isLt
  rw [hzero, Bool.and_true, Bool.and_eq_true, Bool.not_eq_true', ← Bool.not_eq_true, isNaN_iff,
    decide_eq_true_eq, key, BitVec.msb_eq_decide, magnitude]
  simp only [decide_eq_true_eq]
  split <;> omega

/-- Neither a NaN nor one of the two zeros is less than zero. -/
theorem lt_zero_eq_false {bits : BitVec 32} (h : isNaN bits = true ∨ magnitude bits = 0) :
    lt bits 0 = false := by
  rw [← Bool.not_eq_true, lt_zero_iff]
  rw [isNaN_iff, magnitude] at h
  omega

end Single

/-- A signed word that is zero where it would be negative is the greater of it and zero. -/
theorem toInt_ite_msb {n : Nat} (word : BitVec n) :
    (if word.msb then 0 else word).toInt = max word.toInt 0 := by
  rw [BitVec.msb_eq_toInt]
  by_cases hneg : word.toInt < 0
  · rw [if_pos (decide_eq_true hneg), Int.max_eq_right (Int.le_of_lt hneg)]
    exact BitVec.toInt_zero
  · rw [if_neg (by rwa [decide_eq_true_eq]), Int.max_eq_left (Int.not_lt.1 hneg)]

namespace Scalar

/-- What clamping an element has to give: the greater of zero and its signed number, where bytes are
signed whatever the element type says. Of the bits of single-precision numbers those of the numbers
below zero become zero, and all others stay. -/
def IsClamped : (scalar : Scalar) → (value result : scalar.Value) → Prop
  | s8, value, result | u8, value, result | s32, value, result =>
      result.toInt = max value.toInt 0
  | f32, value, result =>
      result = if 0x80000001 ≤ value.toNat ∧ value.toNat ≤ 0xFF800000 then 0 else value

/-- The clamp of elements gives what it has to give. -/
theorem isClamped_clamp (scalar : Scalar) (value : scalar.Value) :
    scalar.IsClamped value (scalar.clamp value) := by
  cases scalar with
  | s8 | u8 | s32 => exact toInt_ite_msb value
  | f32 => exact if_congr Single.lt_zero_iff rfl rfl

end Scalar

/-! ## Lanes -/

/-- The bytes of one lane of a vector, for lanes of `n` bytes. -/
def laneAt (n k : Nat) (vector : List Byte) : List Byte :=
  (vector.drop (n * k)).take n

/-- A lane has no more bytes than its size says. -/
theorem length_laneAt_le (n k : Nat) (vector : List Byte) : (laneAt n k vector).length ≤ n :=
  List.length_take_le ..

/-- A vector of at most one lane is its first lane. -/
theorem laneAt_zero {n : Nat} {vector : List Byte} (h : vector.length ≤ n) :
    laneAt n 0 vector = vector := by
  rw [laneAt, Nat.mul_zero, List.drop_zero, List.take_of_length_le h]

/-- A lane behind the end of a vector is empty. -/
theorem laneAt_of_length_le {n k : Nat} {vector : List Byte} (h : vector.length ≤ n * k) :
    laneAt n k vector = [] := by
  rw [laneAt, List.drop_of_length_le h, List.take_nil]

/-- A lane of a lane-wise result is the result on this lane alone. -/
theorem laneAt_lanewise {n : Nat} (hn : 0 < n)
    (f : BitVec (8 * n) → BitVec (8 * n) → BitVec (8 * n)) {first : List Byte}
    (hfirst : n ∣ first.length) (second : List Byte) (k : Nat) :
    laneAt n k (lanewise n f first second) =
      lanewise n f (laneAt n k first) (laneAt n k second) := by
  obtain ⟨lanes, hlanes⟩ := hfirst
  have hcount : first.length / n = lanes := by rw [hlanes, Nat.mul_div_cancel_left _ hn]
  -- Behind the last lane both sides are empty.
  by_cases hk : k < lanes
  · have hlength : (laneAt n k first).length = n := by
      rw [laneAt, Nat.mul_comm]
      exact length_block (hlanes.trans (Nat.mul_comm ..)) hk
    have hlane : laneAt n k (lanewise n f first second) = Word.toBytes n
        (f (Word.ofBytes n (laneAt n k first)) (Word.ofBytes n (laneAt n k second))) := by
      rw [lanewise, hcount, laneAt, Nat.mul_comm n k,
        row_flatMap_rows (fun _ _ => Word.length_toBytes ..) (by rwa [List.length_range]),
        List.getElem_range]
      rfl
    have halone : lanewise n f (laneAt n k first) (laneAt n k second) = Word.toBytes n
        (f (Word.ofBytes n (laneAt n 0 (laneAt n k first)))
          (Word.ofBytes n (laneAt n 0 (laneAt n k second)))) := by
      rw [lanewise, hlength, Nat.div_self hn]
      exact List.append_nil _
    rw [hlane, halone, laneAt_zero (length_laneAt_le ..), laneAt_zero (length_laneAt_le ..)]
  · have hend : lanes * n ≤ n * k := by
      rw [Nat.mul_comm]
      exact Nat.mul_le_mul_left n (Nat.le_of_not_lt hk)
    rw [laneAt_of_length_le (by rwa [length_lanewise, hcount]),
      laneAt_of_length_le (by rwa [hlanes, Nat.mul_comm]), lanewise, List.length_nil,
      Nat.zero_div]
    rfl

namespace Clamp

/-- A clamp makes of each lane what it makes of this lane alone. -/
theorem laneAt_apply (clamp : Clamp) {zeros vector : List Byte}
    (hzeros : clamp.laneBytes ∣ zeros.length) (hvector : clamp.laneBytes ∣ vector.length)
    (k : Nat) :
    laneAt clamp.laneBytes k (clamp.apply zeros vector) =
      clamp.apply (laneAt clamp.laneBytes k zeros) (laneAt clamp.laneBytes k vector) := by
  cases clamp with
  | maxI8 | maxI32 => exact laneAt_lanewise (by decide) _ hvector zeros k
  | maxF32 => exact laneAt_lanewise (by decide) _ hzeros vector k

/-- Each lane holds one element. -/
theorem laneBytes_of_ofElem {clamp : Clamp} {scalar : Scalar}
    (h : ofElem scalar.elem = .ok clamp) : clamp.laneBytes = scalar.bytes := by
  cases scalar <;> cases h <;> rfl

/-- What a clamp of vectors makes of the bytes of one element. -/
def onElement (clamp : Clamp) (scalar : Scalar) (value : scalar.Value) : scalar.Value :=
  Word.ofBytes scalar.bytes
    (clamp.apply (List.replicate scalar.bytes 0) (Word.toBytes scalar.bytes value))

end Clamp

/-- A vector has whole elements. -/
theorem Scalar.bytes_dvd (scalar : Scalar) (width : VectorWidth) :
    scalar.bytes ∣ width.bytes := by
  cases scalar <;> cases width <;> decide

/-! ## The clamp instruction -/

/-- What the clamp instruction makes of a block in vector register 1. -/
def X86.State.clampedBlock (state : State) (width : VectorWidth) (clamp : Clamp)
    (block : List Byte) : List Byte :=
  ((Instr.clampV1 width clamp).exec state.position
    { state with v1 := extended block }).v1.take width.bytes

variable {scalar : Scalar} {width : VectorWidth} {clamp : Clamp} {state : State}

/-- Where the same part of vector register 0 is zero, a block is clamped as between load and
store. -/
theorem clampedBlock_eq (hzeros : state.v0.take width.bytes = List.replicate width.bytes 0)
    {block : List Byte} (hblock : block.length = width.bytes) :
    state.clampedBlock width clamp block = Selection.onBlock ⟨width, some clamp⟩ block := by
  have hlength := Selection.length_onBlock ⟨width, some clamp⟩ (hblock ▸ width.four_dvd_bytes)
  simp only [Selection.onBlock, hblock] at hlength ⊢
  simp only [State.clampedBlock, Instr.exec, hzeros, take_extended hblock]
  exact take_extended hlength

/-- The selected clamp makes of one element what the clamp of elements makes of it. -/
theorem onElement_eq (h : select width.bits scalar.elem true = .ok ⟨width, some clamp⟩)
    (value : scalar.Value) : clamp.onElement scalar value = scalar.clamp value := by
  have hblock := Selection.onBlock_flatMap_toBytes h [value]
  simp only [Selection.onBlock, List.flatMap_cons, List.flatMap_nil, List.append_nil,
    Word.length_toBytes, List.map_cons, List.map_nil, if_true] at hblock
  rw [Clamp.onElement, hblock, Word.ofBytes_toBytes]

/-- The maximum with zero passes NaNs and both zeros on. -/
theorem lane_maxF32_zero {bits : BitVec 32}
    (h : Single.isNaN bits = true ∨ Single.magnitude bits = 0) : Clamp.maxF32.lane 0 bits = bits :=
  if_neg (Bool.eq_false_iff.1 (Single.lt_zero_eq_false h))

/-- The elements read back from whole vectors that were clamped one by one are the clamped
elements. -/
theorem wordsOf_clampedBlock (h : select width.bits scalar.elem true = .ok ⟨width, some clamp⟩)
    (hzeros : state.v0.take width.bytes = List.replicate width.bytes 0) {vectors : Nat}
    {values : List scalar.Value}
    (hvalues : values.length * scalar.bytes = vectors * width.bytes) :
    Buffer.wordsOf scalar.bytes (changeBlocks width.bytes (state.clampedBlock width clamp) vectors
      (Buffer.bytesOf scalar.bytes values).toList).toArray = values.map scalar.clamp := by
  -- A vector is a block of as many elements as it has room for.
  obtain ⟨block, hblock⟩ := scalar.bytes_dvd width
  rw [Nat.mul_comm] at hblock
  have hpos : 0 < scalar.bytes := by cases scalar <;> decide
  have hcount : values.length = vectors * block := by
    apply Nat.eq_of_mul_eq_mul_right hpos
    rw [hvalues, hblock, Nat.mul_assoc]
  have hbytes : (values.flatMap (Word.toBytes scalar.bytes)).length = vectors * width.bytes := by
    rw [length_flatMap_toBytes, hvalues]
  rw [Buffer.bytesOf, changeBlocks_congr (fun _ => clampedBlock_eq hzeros) hbytes, hblock,
    changeBlocks_flatMap_toBytes h hcount, Buffer.wordsOf_toArray hpos, if_pos rfl]

/-- For every element type and every vector width a clamp is selected. Vectors that are filled with
elements hold the clamped elements after the clamp instruction, where the other register is zero.
The clamp of elements and that of vectors both give what clamping has to give, NaNs and zeros pass,
and each lane of a clamped vector comes from the same lane of the two registers. -/
theorem clamped_vectors {vectors : Nat} {values : List scalar.Value}
    (hvalues : values.length * scalar.bytes = vectors * width.bytes)
    (hzeros : state.v0.take width.bytes = List.replicate width.bytes 0) :
    ∃ clamp, select width.bits scalar.elem true = .ok ⟨width, some clamp⟩ ∧
      Buffer.wordsOf scalar.bytes (changeBlocks width.bytes (state.clampedBlock width clamp) vectors
        (Buffer.bytesOf scalar.bytes values).toList).toArray = values.map scalar.clamp ∧
      (∀ value, scalar.IsClamped value (scalar.clamp value) ∧
        scalar.IsClamped value (clamp.onElement scalar value)) ∧
      (∀ bits, Single.isNaN bits = true ∨ Single.magnitude bits = 0 →
        Clamp.maxF32.lane 0 bits = bits) ∧
      ∀ zeros vector : List Byte, zeros.length = width.bytes → vector.length = width.bytes →
        ∀ k, laneAt scalar.bytes k (clamp.apply zeros vector) =
          clamp.apply (laneAt scalar.bytes k zeros) (laneAt scalar.bytes k vector) := by
  obtain ⟨clamp, hclamp⟩ : ∃ clamp, Clamp.ofElem scalar.elem = .ok clamp := by
    cases scalar <;> exact ⟨_, rfl⟩
  have hselect : select width.bits scalar.elem true = .ok ⟨width, some clamp⟩ :=
    select_eq_ok_iff.2 ⟨rfl, clamp, hclamp, rfl⟩
  refine ⟨clamp, hselect, wordsOf_clampedBlock hselect hzeros hvalues, ?_,
    fun _ => lane_maxF32_zero, ?_⟩
  · intro value
    rw [onElement_eq hselect]
    exact ⟨scalar.isClamped_clamp value, scalar.isClamped_clamp value⟩
  · intro zeros vector hlength hvector
    have hdvd := scalar.bytes_dvd width
    rw [← Clamp.laneBytes_of_ofElem hclamp] at hdvd ⊢
    exact clamp.laneAt_apply (hlength ▸ hdvd) (hvector ▸ hdvd)

/-- Two vectors of single-precision numbers: the two ends of the numbers below zero, what lies
beside these ends, a NaN without the sign, zero, infinity, and minus one. The upper part of the
other register is not zero. -/
theorem clamped_vectors_two_vectors :
    let values : List Scalar.f32.Value := [0x80000001, 0xFF800000, 0x80000000, 0xFF800001,
      0x7F800001, 0, 0x7F800000, 0xBF800000]
    let state : State := { (Call.mk [] [] #[]).entryState with
      v0 := List.replicate 16 0 ++ List.replicate 48 255 }
    let bytes := (Buffer.bytesOf Scalar.f32.bytes values).toList
    values.length * Scalar.f32.bytes = 2 * VectorWidth.xmm.bytes ∧
      state.v0.take VectorWidth.xmm.bytes = List.replicate VectorWidth.xmm.bytes 0 ∧
      Buffer.wordsOf Scalar.f32.bytes (changeBlocks VectorWidth.xmm.bytes
        (state.clampedBlock .xmm .maxF32) 2 bytes).toArray =
        [0, 0, 0x80000000, 0xFF800001, 0x7F800001, 0, 0x7F800000, 0] := by
  intro values state bytes
  have hvalues : values.length * Scalar.f32.bytes = 2 * VectorWidth.xmm.bytes := rfl
  have hzeros : state.v0.take VectorWidth.xmm.bytes = List.replicate VectorWidth.xmm.bytes 0 := rfl
  obtain ⟨clamp, hselect, hwords, -⟩ := clamped_vectors hvalues hzeros
  cases hselect
  exact ⟨hvalues, hzeros, hwords⟩

end ChannelConcat
