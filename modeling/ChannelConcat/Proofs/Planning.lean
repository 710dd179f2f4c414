import ChannelConcat.Concat.Prepare
import ChannelConcat.Proofs.BlockMove
import ChannelConcat.Proofs.Counters
import ChannelConcat.Proofs.Lanes
import ChannelConcat.Proofs.Program.Layout
import ChannelConcat.Proofs.Shapes

/-!
# Plans

Which block a plan takes, and what follows from a plan: its vectors can be selected, its strides are
words, and code can be generated for it. Main statements: `plan_eq_ok_iff`, `plan_of_fit`,
`exists_generate_of_plan`.
-/

namespace ChannelConcat

namespace Plan

/-- The block sizes whose vectors are allowed, the largest first. -/
def sizesWithin (maxBits : Nat) (elem : ElemType) : List Nat :=
  match blockSizes elem.bytes with
  | .ok all => all.filter fun block => blockBits elem.bytes block ≤ maxBits
  | .error _ => []

/-- The allowed block sizes are those that fill a vector register within the cap. -/
theorem mem_sizesWithin {maxBits block : Nat} {elem : ElemType} (h : elem.movable = true) :
    block ∈ sizesWithin maxBits elem ↔
      blockBits elem.bytes block ∈ registerWidths ∧ blockBits elem.bytes block ≤ maxBits := by
  cases elem with
  | f16 | bf16 => cases h
  | s8 | u8 =>
      have hall : blockSizes 1 = .ok [64, 32, 16] := rfl
      rw [sizesWithin, ElemType.bytes, hall, List.mem_filter, decide_eq_true_eq]
      refine and_congr_left fun _ => ?_
      simp only [blockBits, registerWidths, List.mem_cons, List.not_mem_nil, or_false]
      omega
  | s32 | f32 =>
      have hall : blockSizes 4 = .ok [16, 8, 4] := rfl
      rw [sizesWithin, ElemType.bytes, hall, List.mem_filter, decide_eq_true_eq]
      refine and_congr_left fun _ => ?_
      simp only [blockBits, registerWidths, List.mem_cons, List.not_mem_nil, or_false]
      omega

/-- An input beside a plan has no defect exactly if its layout and element type are those of the
output and its channels are whole blocks. -/
theorem inputDefect_eq_none_iff (elem : ElemType) (block : Nat) (input : Tensor) (index : Nat) :
    inputDefect elem block input index = none ↔
      input.layout = .interleaved ∧ input.elem = elem ∧ input.channels % block = 0 := by
  unfold inputDefect
  constructor
  · intro h
    split at h
    · cases h
    · split at h
      · cases h
      · split at h
        · cases h
        · rename_i hlayout helem hchannels
          exact ⟨Decidable.not_not.1 hlayout, Decidable.not_not.1 helem,
            Decidable.not_not.1 hchannels⟩
  · rintro ⟨hlayout, helem, hchannels⟩
    rw [if_neg (not_not_intro hlayout), if_neg (not_not_intro helem),
      if_neg (not_not_intro hchannels)]

/-- A block divides all channel counts exactly if all of them are whole blocks. -/
theorem divides_eq_true_iff {inputs : List Tensor} {block : Nat} :
    divides inputs block = true ↔ ∀ input ∈ inputs, input.channels % block = 0 := by
  simp [divides]

/-- With allowed sizes a plan takes the first that divides all channel counts, if the inputs have
the layout and element type of the output. -/
theorem withSizes_eq_ok_iff {maxBits : Nat} {inputs : List Tensor} {output : Tensor} {relu : Bool}
    {planned : Spec} (hmovable : output.elem.movable = true) :
    withSizes (sizesWithin maxBits output.elem) inputs output relu = .ok planned ↔
      (∀ input ∈ inputs, input.layout = .interleaved ∧ input.elem = output.elem) ∧
        ∃ block, (sizesWithin maxBits output.elem).find? (divides inputs) = some block ∧
          spec inputs output relu block = planned := by
  unfold withSizes
  cases hfind : (sizesWithin maxBits output.elem).find? (divides inputs) with
  | none => simp [refuse]
  | some block =>
      have hwidth := ((mem_sizesWithin hmovable).1 (List.mem_of_find?_eq_some hfind)).1
      have hdivides := divides_eq_true_iff.1 (List.find?_some hfind)
      have hdefect := firstDefect_eq_none_iff (inputDefect_eq_none_iff output.elem block) inputs
      by_cases hinputs : ∀ input ∈ inputs,
          input.layout = .interleaved ∧ input.elem = output.elem
      · have hnone := hdefect.2 fun input hinput =>
          ⟨(hinputs input hinput).1, (hinputs input hinput).2, hdivides input hinput⟩
        simp only [hnone, if_pos hwidth, Except.ok.injEq, Option.some.injEq, exists_eq_left',
          and_iff_right hinputs]
      · have hsome : firstDefect (inputDefect output.elem block) inputs ≠ none := fun hnone =>
          hinputs fun input hinput =>
            ⟨(hdefect.1 hnone input hinput).1, (hdefect.1 hnone input hinput).2.1⟩
        obtain ⟨defect, hfirst⟩ := Option.ne_none_iff_exists'.1 hsome
        simp only [hfirst, refuse, reduceCtorEq, hinputs, false_and]

end Plan

section Plans

variable {maxBits : Nat} {inputs : List Tensor} {output : Tensor} {relu : Bool}

/-- A plan for an output that can be moved picks one of the allowed sizes, if there are any. -/
theorem plan_eq_withSizes (hmovable : output.elem.movable = true)
    (hlayout : output.layout = .interleaved) (hinputs : inputs.length ≤ Plan.maxInputs) :
    plan maxBits inputs output relu =
      if Plan.sizesWithin maxBits output.elem = [] then
        refuse (.unsupported (.widthCap maxBits output.elem))
      else Plan.withSizes (Plan.sizesWithin maxBits output.elem) inputs output relu := by
  have hsizes : ∃ all, Plan.blockSizes output.elem.bytes = .ok all := by
    cases helem : output.elem with
    | f16 | bf16 =>
        rw [helem] at hmovable
        cases hmovable
    | _ => exact ⟨_, rfl⟩
  obtain ⟨all, hall⟩ := hsizes
  unfold plan Plan.sizesWithin
  rw [if_neg (by simp [hmovable]), if_neg (not_not_intro hlayout), if_neg (Nat.not_lt.2 hinputs),
    hall]

/-- A plan is made exactly for an output that can be moved and inputs that agree with it, with the
first allowed block that divides all channel counts. -/
theorem plan_eq_ok_iff {spec : Spec} :
    plan maxBits inputs output relu = .ok spec ↔
      output.elem.movable = true ∧ output.layout = .interleaved ∧
        inputs.length ≤ Plan.maxInputs ∧
        (∀ input ∈ inputs, input.layout = .interleaved ∧ input.elem = output.elem) ∧
        ∃ block, (Plan.sizesWithin maxBits output.elem).find? (Plan.divides inputs) = some block ∧
          Plan.spec inputs output relu block = spec := by
  by_cases hallowed : output.elem.movable = true ∧ output.layout = .interleaved ∧
      inputs.length ≤ Plan.maxInputs
  · obtain ⟨hmovable, hlayout, hinputs⟩ := hallowed
    rw [plan_eq_withSizes hmovable hlayout hinputs, and_iff_right hmovable, and_iff_right hlayout,
      and_iff_right hinputs, ← Plan.withSizes_eq_ok_iff hmovable]
    split
    · rename_i hnone
      simp [hnone, Plan.withSizes, refuse]
    · rfl
  · constructor
    · intro hplan
      unfold plan at hplan
      split at hplan
      · cases hplan
      · split at hplan
        · cases hplan
        · split at hplan
          · cases hplan
          · simp_all
    · exact fun h => absurd ⟨h.1, h.2.1, h.2.2.1⟩ hallowed

/-- For shapes that fit a plan is made, or it is refused for a cause that allows the copy element by
element. -/
theorem plan_of_fit (maxBits : Nat) (relu : Bool) (hfit : Shape.Fit inputs output)
    (hinputs : inputs.length ≤ Plan.maxInputs) :
    (∃ spec, plan maxBits inputs output relu = .ok spec) ∨
      ∃ cause, plan maxBits inputs output relu = refuse cause ∧
        Concat.allowsFallback cause = true := by
  have hagree : ∀ input ∈ inputs, input.layout = .interleaved ∧ input.elem = output.elem :=
    fun input hinput => ⟨(hfit.beside input hinput).layout, (hfit.beside input hinput).elem⟩
  rw [plan_eq_withSizes hfit.movable hfit.layout hinputs]
  split
  · exact .inr ⟨_, rfl, rfl⟩
  · cases hfind : (Plan.sizesWithin maxBits output.elem).find? (Plan.divides inputs) with
    | none =>
        refine .inr ⟨.noBlock (Plan.sizesWithin maxBits output.elem), ?_, rfl⟩
        rw [Plan.withSizes, hfind]
    | some block =>
        exact .inl ⟨_, (Plan.withSizes_eq_ok_iff hfit.movable).2 ⟨hagree, block, hfind, rfl⟩⟩

/-! ## What follows from a plan -/

/-- What a plan settles: its block, which is not empty and fills an allowed vector. -/
structure Plan.Settled (maxBits : Nat) (inputs : List Tensor) (output : Tensor) (relu : Bool)
    (planned : Spec) (block : Nat) : Prop where
  spec_eq : planned = Plan.spec inputs output relu block
  movable : output.elem.movable = true
  inputs_le : inputs.length ≤ Plan.maxInputs
  width : Plan.blockBits output.elem.bytes block ∈ Plan.registerWidths
  width_le : Plan.blockBits output.elem.bytes block ≤ maxBits
  whole : ∀ input ∈ inputs, input.channels % block = 0

/-- Every plan settles a block. -/
theorem exists_settled_of_plan {spec : Spec} (h : plan maxBits inputs output relu = .ok spec) :
    ∃ block, Plan.Settled maxBits inputs output relu spec block := by
  obtain ⟨hmovable, -, hinputs, -, block, hfind, hspec⟩ := plan_eq_ok_iff.1 h
  obtain ⟨hwidth, hle⟩ := (Plan.mem_sizesWithin hmovable).1 (List.mem_of_find?_eq_some hfind)
  exact ⟨block, hspec.symm, hmovable, hinputs, hwidth, hle,
    Plan.divides_eq_true_iff.1 (List.find?_some hfind)⟩

end Plans

namespace Plan.Settled

variable {maxBits block : Nat} {inputs : List Tensor} {output : Tensor} {relu : Bool}
  {planned : Spec}

/-- The bytes of a settled block are those of a vector that can be selected. -/
theorem exists_select (h : Settled maxBits inputs output relu planned block) :
    ∃ selection, select planned.bits planned.elem planned.relu = .ok selection ∧
      selection.width.bytes = block * output.elem.bytes ∧ selection.width.bits ≤ maxBits := by
  have hwidth : ∃ width, VectorWidth.ofBits (blockBits output.elem.bytes block) = .ok width := by
    have hmem := h.width
    simp only [registerWidths, List.mem_cons, List.not_mem_nil, or_false] at hmem
    rcases hmem with hbits | hbits | hbits
    · exact ⟨.xmm, VectorWidth.ofBits_eq_ok_iff.2 hbits⟩
    · exact ⟨.ymm, VectorWidth.ofBits_eq_ok_iff.2 hbits⟩
    · exact ⟨.zmm, VectorWidth.ofBits_eq_ok_iff.2 hbits⟩
  have hclamp : ∃ clamp, Clamp.ofElem output.elem = .ok clamp := by
    have hmovable := h.movable
    cases helem : output.elem with
    | f16 | bf16 =>
        rw [helem] at hmovable
        cases hmovable
    | _ => exact ⟨_, rfl⟩
  obtain ⟨width, hwidth⟩ := hwidth
  obtain ⟨clamp, hclamp⟩ := hclamp
  have hbits := VectorWidth.ofBits_eq_ok_iff.1 hwidth
  have hbytes : width.bytes = block * output.elem.bytes := by
    rw [VectorWidth.bits, blockBits, Nat.mul_assoc] at hbits
    rw [Nat.mul_comm block]
    omega
  rw [h.spec_eq]
  refine ⟨⟨width, if relu then some clamp else none⟩, select_eq_ok_iff.2 ⟨hbits, ?_⟩, hbytes,
    hbits ▸ h.width_le⟩
  cases relu with
  | false => rfl
  | true => exact ⟨clamp, hclamp, rfl⟩

/-- The work on the inputs of a plan is done for each of them. -/
theorem rounds_eq (h : Settled maxBits inputs output relu planned block) :
    planned.rounds = inputs.length := by
  have hlt : inputs.length < 2 ^ 31 := Nat.lt_of_le_of_lt h.inputs_le (by decide)
  rw [Spec.rounds, h.spec_eq]
  exact repeats_ofNat hlt

/-- The stride of a plan, the bytes of a block, is small enough for a signed word. -/
theorem stride_lt (h : Settled maxBits inputs output relu planned block) :
    block * output.elem.bytes ≤ 64 := by
  have hmem := h.width
  simp only [blockBits, registerWidths, List.mem_cons, List.not_mem_nil, or_false,
    Nat.mul_assoc] at hmem
  rw [Nat.mul_comm]
  omega

/-- The stride of a plan can be worked out: it is the bytes of a block. -/
theorem blockBytes_eq (h : Settled maxBits inputs output relu planned block) :
    planned.blockBytes = .ok (block * output.elem.bytes) := by
  have hstride := h.stride_lt
  rw [h.spec_eq]
  exact Size.mul_eq_ok_iff.2 ⟨rfl, by rw [Size.limit]; omega⟩

/-- The bounds of the loops of a plan can be worked out, and with inputs they are their number and
the bytes of a block. -/
theorem exists_loopBounds (h : Settled maxBits inputs output relu planned block) :
    ∃ bounds, planned.loopBounds = .ok bounds ∧ repeats bounds.inputs = inputs.length ∧
      (inputs ≠ [] → bounds.stride.toInt = (block * output.elem.bytes : Nat)) := by
  have hstride := h.stride_lt
  have hbounds : ∃ bounds, planned.loopBounds = .ok bounds := by
    simp only [Spec.loopBounds, h.blockBytes_eq, Except.map]
    split <;> exact ⟨_, rfl⟩
  obtain ⟨bounds, hbounds⟩ := hbounds
  obtain ⟨hinputs, hwork⟩ := Spec.bounds_of_loopBounds hbounds
  have hrounds := h.rounds_eq
  refine ⟨bounds, hbounds, by rw [hinputs, ← hrounds, Spec.rounds], ?_⟩
  intro hnonempty
  rw [hwork (hrounds ▸ fun hzero => hnonempty (List.eq_nil_of_length_eq_zero hzero)), h.spec_eq]
  exact toInt_ofNat_of_lt (by show block * output.elem.bytes < _; omega)

end Plan.Settled

/-- A level has the instructions on every vector that is not wider than its widest. -/
theorem VectorWidth.isa_le {width : VectorWidth} {isa : Isa} (h : width.bits ≤ isa.vectorBits) :
    width.isa ≤ isa := by
  revert h
  cases width <;> cases isa <;> decide

/-- A level within whose vectors there is a plan has vectors. -/
theorem Plan.Settled.hasVectors {isa : Isa} {maxBits block : Nat} {inputs : List Tensor}
    {output : Tensor} {relu : Bool} {planned : Spec}
    (h : Plan.Settled maxBits inputs output relu planned block) (hmax : maxBits ≤ isa.vectorBits) :
    isa.hasVectors = true := by
  obtain ⟨selection, -, -, hbits⟩ := h.exists_select
  have hlevel := VectorWidth.isa_le (Nat.le_trans hbits hmax)
  revert hlevel
  cases selection.width <;> cases isa <;> decide

/-- Code can be generated for every plan within the vectors of the level. -/
theorem exists_generate_of_plan {isa : Isa} {maxBits : Nat} {inputs : List Tensor}
    {output : Tensor} {relu : Bool} {spec : Spec}
    (hplan : plan maxBits inputs output relu = .ok spec) (hmax : maxBits ≤ isa.vectorBits) :
    ∃ code, generate isa spec = .ok code := by
  obtain ⟨block, hsettled⟩ := exists_settled_of_plan hplan
  obtain ⟨selection, hselect, -, hbits⟩ := hsettled.exists_select
  obtain ⟨bounds, hbounds, -⟩ := hsettled.exists_loopBounds
  exact exists_generate selection bounds hselect (hsettled.hasVectors hmax)
    (VectorWidth.isa_le (Nat.le_trans hbits hmax)) hbounds

/-- Generated code is never empty. -/
theorem ne_nil_of_generate {isa : Isa} {spec : Spec} {code : List Byte}
    (h : generate isa spec = .ok code) : code ≠ [] := by
  obtain ⟨selection, bounds, instrs, -, -, -, -, hassemble, rfl⟩ := generate_eq_ok_iff.1 h
  intro hnil
  have hlength := X86.length_encode_resolveFrom? hassemble
  rw [hnil, List.length_nil, Program.items, X86.codeSize_append, X86.codeSize_append] at hlength
  have hentry : X86.codeSize Program.entry = 19 := by decide
  omega

end ChannelConcat
