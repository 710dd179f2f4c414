import Mathlib.Algebra.GCDMonoid.Multiset
import Mathlib.Algebra.GCDMonoid.Nat
import Mathlib.Order.Bounds.Basic
import ChannelConcat.Proofs.Planning

/-!
# Outcomes of planning

Planning has one outcome for all inputs and outputs: the first of its checks that fails decides the
failure, and where none fails the plan takes the largest candidate block within the cap that divides
the greatest common divisor of the channel counts. Main definitions: `Plan.Fits`, `Plan.Outcome`,
`Plan.Exact`. Main statements: `plan_eq_iff_outcome`, `plan_exact`.
-/

namespace ChannelConcat

/-- In a list that descends, the first number that passes a test is the greatest. -/
theorem find?_eq_some_iff_isGreatest {sizes : List Nat} {test : Nat → Bool} {size : Nat}
    (hdescending : sizes.Pairwise (· > ·)) :
    sizes.find? test = some size ↔ IsGreatest {size | size ∈ sizes ∧ test size = true} size := by
  induction sizes with
  | nil => simp [IsGreatest]
  | cons first rest ih =>
      obtain ⟨hfirst, hrest⟩ := List.pairwise_cons.1 hdescending
      by_cases htest : test first = true
      · have hgreatest : IsGreatest {size | size ∈ first :: rest ∧ test size = true} first := by
          refine ⟨⟨List.mem_cons_self, htest⟩, ?_⟩
          rintro other ⟨hother, -⟩
          rcases List.mem_cons.1 hother with rfl | hmem
          · exact Nat.le_refl _
          · exact Nat.le_of_lt (hfirst other hmem)
        rw [List.find?_cons_of_pos htest, Option.some.injEq]
        exact ⟨fun heq => heq ▸ hgreatest, fun h => hgreatest.unique h⟩
      · rw [List.find?_cons_of_neg htest, ih hrest]
        have hset : {size | size ∈ first :: rest ∧ test size = true} =
            {size | size ∈ rest ∧ test size = true} := by
          ext other
          refine and_congr_left fun hother => ?_
          rw [List.mem_cons, or_iff_right]
          rintro rfl
          exact htest hother
        rw [hset]

namespace Plan

/-! ## Candidate blocks -/

/-- A block that a plan can take: a candidate for the element type whose vectors are within the cap
and that divides the channel count of every input. -/
structure Fits (maxBits : Nat) (inputs : List Tensor) (elem : ElemType) (block : Nat) : Prop where
  candidate : ∃ sizes, blockSizes elem.bytes = .ok sizes ∧ block ∈ sizes
  width_le : blockBits elem.bytes block ≤ maxBits
  dvd : ∀ input ∈ inputs, block ∣ input.channels

variable {maxBits block : Nat} {inputs : List Tensor} {output : Tensor} {elem : ElemType}
  {relu : Bool}

/-- The candidates within the cap are those that are listed for the size of an element and fill
vectors within the cap. -/
theorem mem_sizesWithin_iff_candidate :
    block ∈ sizesWithin maxBits elem ↔
      (∃ sizes, blockSizes elem.bytes = .ok sizes ∧ block ∈ sizes) ∧
        blockBits elem.bytes block ≤ maxBits := by
  rw [sizesWithin]
  cases blockSizes elem.bytes with
  | error fault => simp
  | ok sizes => simp

/-- The blocks that fit are the candidates within the cap that divide all channel counts. -/
theorem fits_iff_divides :
    Fits maxBits inputs elem block ↔
      block ∈ sizesWithin maxBits elem ∧ divides inputs block = true := by
  rw [mem_sizesWithin_iff_candidate, divides_eq_true_iff]
  constructor
  · intro h
    exact ⟨⟨h.candidate, h.width_le⟩,
      fun input hinput => Nat.mod_eq_zero_of_dvd (h.dvd input hinput)⟩
  · rintro ⟨⟨hcandidate, hwidth⟩, hwhole⟩
    exact ⟨hcandidate, hwidth, fun input hinput => Nat.dvd_of_mod_eq_zero (hwhole input hinput)⟩

/-- The blocks that fit are the candidates within the cap that divide the greatest common divisor of
the channel counts. -/
theorem fits_iff_dvd_gcd :
    Fits maxBits inputs elem block ↔
      block ∈ sizesWithin maxBits elem ∧
        block ∣ Multiset.gcd (inputs.map Tensor.channels : Multiset Nat) := by
  rw [fits_iff_divides, divides_eq_true_iff, Multiset.dvd_gcd]
  simp [Nat.dvd_iff_mod_eq_zero]

/-- Whether a block fits does not depend on the order of the inputs. -/
theorem Fits.perm {others : List Tensor} (h : Fits maxBits inputs elem block)
    (hperm : inputs.Perm others) : Fits maxBits others elem block :=
  ⟨h.candidate, h.width_le, fun input hinput => h.dvd input (hperm.mem_iff.2 hinput)⟩

/-- The candidates are listed from the largest to the smallest. -/
theorem pairwise_sizesWithin (maxBits : Nat) (elem : ElemType) :
    (sizesWithin maxBits elem).Pairwise (· > ·) := by
  rw [sizesWithin]
  cases hsizes : blockSizes elem.bytes with
  | error fault => exact .nil
  | ok sizes =>
      refine List.Pairwise.filter _ ?_
      rw [blockSizes] at hsizes
      split at hsizes
      · cases hsizes
        decide
      · split at hsizes
        · cases hsizes
          decide
        · cases hsizes

/-- No candidate is within the cap exactly if the cap is below the narrowest register. -/
theorem sizesWithin_eq_nil_iff (hmovable : elem.movable = true) :
    sizesWithin maxBits elem = [] ↔ maxBits < 128 := by
  have hnarrowest : ∃ block, blockBits elem.bytes block = 128 := by
    cases elem with
    | f16 | bf16 => cases hmovable
    | s8 | u8 => exact ⟨16, rfl⟩
    | s32 | f32 => exact ⟨4, rfl⟩
  obtain ⟨narrowest, hbits⟩ := hnarrowest
  rw [List.eq_nil_iff_forall_not_mem]
  constructor
  · intro hnone
    by_contra hcap
    refine hnone narrowest ((mem_sizesWithin hmovable).2 ?_)
    rw [hbits]
    exact ⟨by decide, Nat.le_of_not_lt hcap⟩
  · intro hcap block hblock
    obtain ⟨hregister, hle⟩ := (mem_sizesWithin hmovable).1 hblock
    simp only [registerWidths, List.mem_cons, List.not_mem_nil, or_false] at hregister
    omega

/-- The search among the candidates settles on the greatest block that fits. -/
theorem find?_sizesWithin_eq_some_iff :
    (sizesWithin maxBits elem).find? (divides inputs) = some block ↔
      IsGreatest {block | Fits maxBits inputs elem block} block := by
  rw [find?_eq_some_iff_isGreatest (pairwise_sizesWithin maxBits elem)]
  simp only [fits_iff_divides]

/-- The search among the candidates fails exactly if no block fits. -/
theorem find?_sizesWithin_eq_none_iff :
    (sizesWithin maxBits elem).find? (divides inputs) = none ↔
      ∀ block, ¬ Fits maxBits inputs elem block := by
  simp only [List.find?_eq_none, fits_iff_divides, not_and]

/-! ## Outcomes -/

/-- What a plan needs of the output and of the number of inputs. -/
structure Ready (inputs : List Tensor) (output : Tensor) : Prop where
  movable : output.elem.movable = true
  layout : output.layout = .interleaved
  inputs_le : inputs.length ≤ maxInputs

/-- An input has the layout that is needed and the element type of the output. -/
structure Agrees (output input : Tensor) : Prop where
  layout : input.layout = .interleaved
  elem : input.elem = output.elem

/-- The outcomes of planning, each with the checks that pass before it and the one that decides. -/
inductive Outcome (maxBits : Nat) (inputs : List Tensor) (output : Tensor) (relu : Bool) :
    Except Failure Spec → Prop
  /-- The elements of the output cannot be moved. -/
  | elemType (hmovable : output.elem.movable = false) :
      Outcome maxBits inputs output relu (refuse (.elemType output.elem))
  /-- The output is not channel-interleaved. -/
  | outputLayout (hmovable : output.elem.movable = true) (hlayout : output.layout ≠ .interleaved) :
      Outcome maxBits inputs output relu (breach (.outputLayout output.layout))
  /-- There are more inputs than a routine can count. -/
  | inputs (hmovable : output.elem.movable = true) (hlayout : output.layout = .interleaved)
      (hinputs : maxInputs < inputs.length) :
      Outcome maxBits inputs output relu (refuse (.inputs inputs.length))
  /-- The cap is below the narrowest register. -/
  | widthCap (hready : Ready inputs output) (hcap : maxBits < 128) :
      Outcome maxBits inputs output relu (refuse (.unsupported (.widthCap maxBits output.elem)))
  /-- No candidate within the cap divides all channel counts. -/
  | noBlock (hready : Ready inputs output) (hcap : 128 ≤ maxBits)
      (hnone : ∀ block, ¬ Fits maxBits inputs output.elem block) :
      Outcome maxBits inputs output relu (refuse (.noBlock (sizesWithin maxBits output.elem)))
  /-- The first input that does not agree with the output is not channel-interleaved. -/
  | inputLayout (hready : Ready inputs output)
      (hfits : ∃ block, Fits maxBits inputs output.elem block)
      (before rest : List Tensor) (input : Tensor) (hinputs : inputs = before ++ input :: rest)
      (hbefore : ∀ earlier ∈ before, Agrees output earlier)
      (hlayout : input.layout ≠ .interleaved) :
      Outcome maxBits inputs output relu
        (refuse (.layout before.length .interleaved input.layout))
  /-- The first input that does not agree with the output is channel-interleaved, but has another
  element type. -/
  | inputElem (hready : Ready inputs output)
      (hfits : ∃ block, Fits maxBits inputs output.elem block)
      (before rest : List Tensor) (input : Tensor) (hinputs : inputs = before ++ input :: rest)
      (hbefore : ∀ earlier ∈ before, Agrees output earlier)
      (hlayout : input.layout = .interleaved) (helem : input.elem ≠ output.elem) :
      Outcome maxBits inputs output relu
        (refuse (.inputElem before.length output.elem input.elem))
  /-- All inputs agree with the output, and the plan takes the greatest block that fits. -/
  | planned (hready : Ready inputs output) (hinputs : ∀ input ∈ inputs, Agrees output input)
      (block : Nat) (hgreatest : IsGreatest {block | Fits maxBits inputs output.elem block} block) :
      Outcome maxBits inputs output relu (.ok (spec inputs output relu block))

/-- Every request for a plan has an outcome. -/
theorem exists_outcome (maxBits : Nat) (inputs : List Tensor) (output : Tensor) (relu : Bool) :
    ∃ result, Outcome maxBits inputs output relu result := by
  by_cases hmovable : output.elem.movable = true
  case neg => exact ⟨_, .elemType (Bool.eq_false_of_not_eq_true hmovable)⟩
  by_cases hlayout : output.layout = .interleaved
  case neg => exact ⟨_, .outputLayout hmovable hlayout⟩
  by_cases hcount : inputs.length ≤ maxInputs
  case neg => exact ⟨_, .inputs hmovable hlayout (Nat.lt_of_not_le hcount)⟩
  have hready : Ready inputs output := ⟨hmovable, hlayout, hcount⟩
  by_cases hcap : maxBits < 128
  case pos => exact ⟨_, .widthCap hready hcap⟩
  cases hfind : (sizesWithin maxBits output.elem).find? (divides inputs) with
  | none =>
      exact ⟨_, .noBlock hready (Nat.le_of_not_lt hcap) (find?_sizesWithin_eq_none_iff.1 hfind)⟩
  | some block =>
      have hgreatest := find?_sizesWithin_eq_some_iff.1 hfind
      by_cases hinputs : ∀ input ∈ inputs, Agrees output input
      case pos => exact ⟨_, .planned hready hinputs block hgreatest⟩
      obtain ⟨before, input, rest, hsplit, hbefore, hbad⟩ := exists_first_of_not_forall hinputs
      by_cases hinterleaved : input.layout = .interleaved
      · have helem : input.elem ≠ output.elem := fun helem => hbad ⟨hinterleaved, helem⟩
        exact ⟨_, .inputElem hready ⟨block, hgreatest.1⟩ before rest input hsplit hbefore
          hinterleaved helem⟩
      · exact ⟨_, .inputLayout hready ⟨block, hgreatest.1⟩ before rest input hsplit hbefore
          hinterleaved⟩

/-- The defect of a plan's inputs is that of the first that has one, after inputs that agree with
the output and whose channels are whole blocks. -/
theorem firstDefect_inputDefect {before rest : List Tensor} {input : Tensor} {defect : Refusal}
    (hbefore : ∀ earlier ∈ before, Agrees output earlier ∧ earlier.channels % block = 0)
    (hdefect : inputDefect output.elem block input before.length = some defect) :
    firstDefect (inputDefect output.elem block) (before ++ input :: rest) = some defect := by
  refine (firstDefect_eq_some_iff (inputDefect_eq_none_iff output.elem block)).2
    ⟨before, input, rest, rfl, ?_, hdefect⟩
  exact fun earlier hearlier => ⟨(hbefore earlier hearlier).1.layout,
    (hbefore earlier hearlier).1.elem, (hbefore earlier hearlier).2⟩

/-- With a candidate within the cap, planning comes to the search among the candidates. -/
theorem Ready.plan_eq (h : Ready inputs output) (hcap : 128 ≤ maxBits) :
    plan maxBits inputs output relu =
      withSizes (sizesWithin maxBits output.elem) inputs output relu := by
  rw [plan_eq_withSizes h.movable h.layout h.inputs_le, if_neg]
  exact fun hnil => Nat.not_lt.2 hcap ((sizesWithin_eq_nil_iff h.movable).1 hnil)

/-- A cap within which a block fits is not below the narrowest register. -/
theorem Fits.le_cap (h : Fits maxBits inputs elem block) (hmovable : elem.movable = true) :
    128 ≤ maxBits := by
  by_contra hcap
  have hmem := (fits_iff_divides.1 h).1
  rw [(sizesWithin_eq_nil_iff hmovable).2 (Nat.lt_of_not_le hcap)] at hmem
  cases hmem

/-- Where a block fits, the defect of the first input that does not agree with the output is the
outcome. -/
theorem Ready.plan_eq_refuse (h : Ready inputs output)
    (hfits : ∃ block, Fits maxBits inputs output.elem block) {before rest : List Tensor}
    {input : Tensor} {defect : Refusal} (hinputs : inputs = before ++ input :: rest)
    (hbefore : ∀ earlier ∈ before, Agrees output earlier)
    (hdefect : ∀ block, inputDefect output.elem block input before.length = some defect) :
    plan maxBits inputs output relu = refuse defect := by
  obtain ⟨fitting, hfitting⟩ := hfits
  rw [h.plan_eq (hfitting.le_cap h.movable), withSizes]
  cases hfind : (sizesWithin maxBits output.elem).find? (divides inputs) with
  | none => exact absurd hfitting (find?_sizesWithin_eq_none_iff.1 hfind fitting)
  | some block =>
      have hwhole := divides_eq_true_iff.1 (List.find?_some hfind)
      have hfirst : firstDefect (inputDefect output.elem block) inputs = some defect := by
        rw [hinputs]
        refine firstDefect_inputDefect ?_ (hdefect block)
        intro earlier hearlier
        exact ⟨hbefore earlier hearlier,
          hwhole earlier (hinputs ▸ List.mem_append_left _ hearlier)⟩
      simp only [hfirst]

/-- An outcome is what planning comes to. -/
theorem Outcome.plan_eq {result : Except Failure Spec}
    (h : Outcome maxBits inputs output relu result) :
    plan maxBits inputs output relu = result := by
  cases h with
  | elemType hmovable => rw [plan, if_pos hmovable]
  | outputLayout hmovable hlayout =>
      rw [plan, if_neg (by simp [hmovable]), if_pos hlayout]
  | inputs hmovable hlayout hinputs =>
      rw [plan, if_neg (by simp [hmovable]), if_neg (not_not_intro hlayout), if_pos hinputs]
  | widthCap hready hcap =>
      rw [plan_eq_withSizes hready.movable hready.layout hready.inputs_le,
        if_pos ((sizesWithin_eq_nil_iff hready.movable).2 hcap)]
  | noBlock hready hcap hnone =>
      rw [hready.plan_eq hcap, withSizes, find?_sizesWithin_eq_none_iff.2 hnone]
  | inputLayout hready hfits before rest input hinputs hbefore hlayout =>
      exact hready.plan_eq_refuse hfits hinputs hbefore fun block => by
        rw [inputDefect, if_pos hlayout]
  | inputElem hready hfits before rest input hinputs hbefore hlayout helem =>
      exact hready.plan_eq_refuse hfits hinputs hbefore fun block => by
        rw [inputDefect, if_neg (not_not_intro hlayout), if_pos helem]
  | planned hready hinputs block hgreatest =>
      refine plan_eq_ok_iff.2 ⟨hready.movable, hready.layout, hready.inputs_le, ?_, block,
        find?_sizesWithin_eq_some_iff.2 hgreatest, rfl⟩
      exact fun input hinput => ⟨(hinputs input hinput).layout, (hinputs input hinput).elem⟩

end Plan

/-- Planning has exactly these outcomes. -/
theorem plan_eq_iff_outcome {maxBits : Nat} {inputs : List Tensor} {output : Tensor} {relu : Bool}
    {result : Except Failure Spec} :
    plan maxBits inputs output relu = result ↔ Plan.Outcome maxBits inputs output relu result := by
  refine ⟨?_, Plan.Outcome.plan_eq⟩
  rintro rfl
  obtain ⟨result, houtcome⟩ := Plan.exists_outcome maxBits inputs output relu
  exact houtcome.plan_eq ▸ houtcome

/-- The last two checks never fail: the search has settled on a block that divides all channel
counts and fills a register. -/
theorem plan_ne_refuse {maxBits : Nat} {inputs : List Tensor} {output : Tensor} {relu : Bool} :
    (∀ index channels block,
      plan maxBits inputs output relu ≠ refuse (.indivisible index channels block)) ∧
    ∀ bits, plan maxBits inputs output relu ≠ refuse (.vectorWidth bits) := by
  constructor
  · intro index channels block hplan
    cases plan_eq_iff_outcome.1 hplan
  · intro bits hplan
    cases plan_eq_iff_outcome.1 hplan

/-! ## Plans -/

namespace Plan

/-- What a plan says: the block is the greatest that fits, which is the greatest candidate within
the cap that divides the greatest common divisor of the channel counts; a block fills a register
within the cap; and everything else is as it was asked for. -/
structure Exact (maxBits : Nat) (inputs : List Tensor) (output : Tensor) (relu : Bool)
    (planned : Spec) : Prop where
  greatest : IsGreatest {block | Fits maxBits inputs output.elem block} planned.block
  greatest_dvd_gcd : IsGreatest
    {block | block ∈ sizesWithin maxBits output.elem ∧
      block ∣ Multiset.gcd (inputs.map Tensor.channels : Multiset Nat)} planned.block
  bits : planned.bits = 8 * output.elem.bytes * planned.block
  register : planned.bits = 128 ∨ planned.bits = 256 ∨ planned.bits = 512
  bits_le : planned.bits ≤ maxBits
  inputs : planned.inputs = inputs.length
  dims : planned.dims = output.dims
  relu : planned.relu = relu
  elem : planned.elem = output.elem
  elemBytes : planned.elemBytes = output.elem.bytes

variable {maxBits : Nat} {inputs : List Tensor} {output : Tensor} {relu : Bool}

/-- The specification with the greatest block that fits is as described. -/
theorem Ready.exact {block : Nat} (h : Ready inputs output)
    (hgreatest : IsGreatest {block | Fits maxBits inputs output.elem block} block) :
    Exact maxBits inputs output relu (spec inputs output relu block) := by
  obtain ⟨hregister, hle⟩ :=
    (mem_sizesWithin h.movable).1 (fits_iff_divides.1 hgreatest.1).1
  have hgcd := hgreatest
  simp only [fits_iff_dvd_gcd] at hgcd
  simp only [registerWidths, List.mem_cons, List.not_mem_nil, or_false] at hregister
  exact ⟨hgreatest, hgcd, rfl, hregister, hle, rfl, rfl, rfl, rfl, rfl⟩

/-- A plan for inputs in one order is the plan for them in any other. -/
theorem plan_of_perm {others : List Tensor} {planned : Spec} (hperm : inputs.Perm others)
    (h : plan maxBits inputs output relu = .ok planned) :
    plan maxBits others output relu = .ok planned := by
  cases plan_eq_iff_outcome.1 h with
  | planned hready hinputs block hgreatest =>
      have hlength := hperm.length_eq
      have hset : {block | Fits maxBits inputs output.elem block} =
          {block | Fits maxBits others output.elem block} :=
        Set.ext fun block => ⟨fun hfits => hfits.perm hperm, fun hfits => hfits.perm hperm.symm⟩
      have hothers : Outcome maxBits others output relu (.ok (spec others output relu block)) :=
        .planned ⟨hready.movable, hready.layout, hlength ▸ hready.inputs_le⟩
          (fun input hinput => hinputs input (hperm.mem_iff.2 hinput)) block (hset ▸ hgreatest)
      rw [hothers.plan_eq, spec, spec, hlength]

end Plan

/-- Planning is exact. Its outcome is that of the first check that fails; a plan is made exactly if
the output can be moved and is channel-interleaved, the inputs can be counted, some block fits, and
all inputs agree with the output; the plan then has the greatest block that fits, a legal width and
the shape of the output; and the order of the inputs does not matter to it. -/
theorem plan_exact (maxBits : Nat) (inputs : List Tensor) (output : Tensor) (relu : Bool) :
    (∀ result, plan maxBits inputs output relu = result ↔
      Plan.Outcome maxBits inputs output relu result) ∧
    ((∃ planned, plan maxBits inputs output relu = .ok planned) ↔
      inputs.length ≤ Plan.maxInputs ∧ (output.elem.bytes = 1 ∨ output.elem.bytes = 4) ∧
        output.layout = .interleaved ∧ (∃ block, Plan.Fits maxBits inputs output.elem block) ∧
        ∀ input ∈ inputs, Plan.Agrees output input) ∧
    ∀ planned, plan maxBits inputs output relu = .ok planned →
      Plan.Exact maxBits inputs output relu planned ∧
        ∀ others, inputs.Perm others → plan maxBits others output relu = .ok planned := by
  refine ⟨fun result => plan_eq_iff_outcome, ⟨?_, ?_⟩, ?_⟩
  · rintro ⟨planned, hplan⟩
    cases plan_eq_iff_outcome.1 hplan with
    | planned hready hinputs block hgreatest =>
        have hbytes : output.elem.bytes = 1 ∨ output.elem.bytes = 4 := by
          simpa [ElemType.movable] using hready.movable
        exact ⟨hready.inputs_le, hbytes, hready.layout, ⟨block, hgreatest.1⟩, hinputs⟩
  · rintro ⟨hcount, hbytes, hlayout, ⟨fitting, hfitting⟩, hinputs⟩
    have hmovable : output.elem.movable = true := by simpa [ElemType.movable] using hbytes
    cases hfind : (Plan.sizesWithin maxBits output.elem).find? (Plan.divides inputs) with
    | none => exact absurd hfitting (Plan.find?_sizesWithin_eq_none_iff.1 hfind fitting)
    | some block =>
        exact ⟨_, plan_eq_iff_outcome.2 (.planned ⟨hmovable, hlayout, hcount⟩ hinputs block
          (Plan.find?_sizesWithin_eq_some_iff.1 hfind))⟩
  · intro planned hplan
    refine ⟨?_, fun others hperm => Plan.plan_of_perm hperm hplan⟩
    cases plan_eq_iff_outcome.1 hplan with
    | planned hready hinputs block hgreatest => exact hready.exact hgreatest

/-- Bytes of 96 and of 32 channels are planned with the greatest block within 300 bits that divides
32, in either order. With planar inputs on both sides of one of another element type, the first
planar input is refused. -/
theorem plan_exact_bytes :
    let wide : Tensor := .interleaved .u8 ⟨1, 2, 2, 96⟩
    let narrow : Tensor := .interleaved .u8 ⟨1, 2, 2, 32⟩
    let output : Tensor := .interleaved .u8 ⟨1, 2, 2, 128⟩
    let planned : Spec := ⟨2, true, .u8, 1, 32, 256, ⟨1, 2, 2, 128⟩⟩
    let planar : Tensor := { wide with layout := .planar }
    let signed : Tensor := { wide with elem := .s8 }
    plan 300 [wide, narrow] output true = .ok planned ∧
      plan 300 [narrow, wide] output true = .ok planned ∧
      IsGreatest {block | Plan.Fits 300 [wide, narrow] .u8 block} 32 ∧
      Plan.Outcome 300 [narrow, planar, signed, planar] output true
        (refuse (.layout 1 .interleaved .planar)) := by
  intro wide narrow output planned planar signed
  have hplan : plan 300 [wide, narrow] output true = .ok planned := by decide +kernel
  have hrefused : plan 300 [narrow, planar, signed, planar] output true =
      refuse (.layout 1 .interleaved .planar) := by decide +kernel
  obtain ⟨-, -, hplanned⟩ := plan_exact 300 [wide, narrow] output true
  obtain ⟨hexact, hperm⟩ := hplanned planned hplan
  exact ⟨hplan, hperm _ (.swap narrow wide []), hexact.greatest,
    ((plan_exact 300 [narrow, planar, signed, planar] output true).1 _).1 hrefused⟩

end ChannelConcat
