import ChannelConcat.Proofs.Outcomes

/-!
# Width caps

The register widths divide one another, and so do the blocks that fill them. A lower cap on the
width of vectors therefore narrows the vectors of a plan and changes nothing else: while the
narrowest register is within the cap, the same shapes are planned, and all others fail in the same
way. Main definition: `Plan.Narrows`. Main statements: `Plan.exists_fits_iff`, `plan_narrows`.
-/

namespace ChannelConcat

namespace Plan

variable {maxBits lower upper narrow wide block bits : Nat} {inputs : List Tensor}
  {output : Tensor} {elem : ElemType} {relu : Bool}

/-! ## Registers -/

/-- Of two register widths the smaller divides the greater. -/
theorem dvd_of_mem_registerWidths (hnarrow : narrow ∈ registerWidths)
    (hwide : wide ∈ registerWidths) (hle : narrow ≤ wide) : narrow ∣ wide := by
  simp only [registerWidths, List.mem_cons, List.not_mem_nil, or_false] at hnarrow hwide
  rcases hnarrow with rfl | rfl | rfl <;> rcases hwide with rfl | rfl | rfl <;> omega

/-- No register is narrower than 128 bits. -/
theorem le_of_mem_registerWidths (hbits : bits ∈ registerWidths) : 128 ≤ bits := by
  simp only [registerWidths, List.mem_cons, List.not_mem_nil, or_false] at hbits
  omega

/-- Of two blocks that fill a register the one with the narrower vectors divides the other. -/
theorem dvd_of_blockBits_le (hnarrow : blockBits elem.bytes narrow ∈ registerWidths)
    (hwide : blockBits elem.bytes wide ∈ registerWidths)
    (hle : blockBits elem.bytes narrow ≤ blockBits elem.bytes wide) : narrow ∣ wide := by
  have hbytes : 0 < 8 * elem.bytes := by
    cases elem <;> simp [ElemType.bytes]
  exact Nat.dvd_of_mul_dvd_mul_left hbytes (dvd_of_mem_registerWidths hnarrow hwide hle)

/-- The number of elements that fill the narrowest register: 16 of one byte, and 4 of four. -/
def leastBlock (elem : ElemType) : Nat :=
  16 / elem.bytes

/-- Elements that can be moved fill the narrowest register in their least block. -/
theorem blockBits_leastBlock (hmovable : elem.movable = true) :
    blockBits elem.bytes (leastBlock elem) = 128 := by
  cases elem with
  | f16 | bf16 => cases hmovable
  | _ => rfl

/-- Elements that can be moved fill every register in some block. -/
theorem exists_blockBits_eq (hmovable : elem.movable = true) (hbits : bits ∈ registerWidths) :
    ∃ block, blockBits elem.bytes block = bits := by
  obtain ⟨count, rfl⟩ := dvd_of_mem_registerWidths List.mem_cons_self hbits
    (le_of_mem_registerWidths hbits)
  refine ⟨leastBlock elem * count, ?_⟩
  rw [blockBits, ← Nat.mul_assoc]
  exact congrArg (· * count) (blockBits_leastBlock hmovable)

/-! ## Blocks that fit -/

/-- A block fits exactly if it fills a register within the cap and divides all channel counts. -/
theorem fits_iff_registerWidths (hmovable : elem.movable = true) :
    Fits maxBits inputs elem block ↔
      (blockBits elem.bytes block ∈ registerWidths ∧ blockBits elem.bytes block ≤ maxBits) ∧
        ∀ input ∈ inputs, block ∣ input.channels := by
  rw [fits_iff_divides, mem_sizesWithin hmovable, divides_eq_true_iff]
  simp only [Nat.dvd_iff_mod_eq_zero]

/-- A block that fills a register within a cap fits there if a block with wider vectors fits
anywhere. -/
theorem Fits.of_blockBits_le (h : Fits upper inputs elem wide) (hmovable : elem.movable = true)
    (hregister : blockBits elem.bytes block ∈ registerWidths)
    (hcap : blockBits elem.bytes block ≤ lower)
    (hle : blockBits elem.bytes block ≤ blockBits elem.bytes wide) :
    Fits lower inputs elem block := by
  obtain ⟨⟨hwide, -⟩, hdvd⟩ := (fits_iff_registerWidths hmovable).1 h
  refine (fits_iff_registerWidths hmovable).2 ⟨⟨hregister, hcap⟩, ?_⟩
  exact fun input hinput => (dvd_of_blockBits_le hregister hwide hle).trans (hdvd input hinput)

/-- Within a cap that admits the narrowest register some block fits exactly if all channel counts
are multiples of the least block. -/
theorem exists_fits_iff (hmovable : elem.movable = true) (hcap : 128 ≤ maxBits) :
    (∃ block, Fits maxBits inputs elem block) ↔
      ∀ input ∈ inputs, leastBlock elem ∣ input.channels := by
  have hbits := blockBits_leastBlock hmovable
  have hregister : blockBits elem.bytes (leastBlock elem) ∈ registerWidths :=
    hbits ▸ List.mem_cons_self
  constructor
  · rintro ⟨block, hfits⟩
    obtain ⟨⟨hwide, -⟩, -⟩ := (fits_iff_registerWidths hmovable).1 hfits
    exact (hfits.of_blockBits_le hmovable hregister (hbits.trans_le hcap)
      (hbits.trans_le (le_of_mem_registerWidths hwide))).dvd
  · intro hdvd
    exact ⟨leastBlock elem,
      (fits_iff_registerWidths hmovable).2 ⟨⟨hregister, hbits.trans_le hcap⟩, hdvd⟩⟩

/-- Where some block fits, there is a greatest. -/
theorem exists_isGreatest_fits (h : ∃ block, Fits maxBits inputs elem block) :
    ∃ block, IsGreatest {block | Fits maxBits inputs elem block} block := by
  obtain ⟨fitting, hfitting⟩ := h
  cases hfind : (sizesWithin maxBits elem).find? (divides inputs) with
  | none => exact absurd hfitting (find?_sizesWithin_eq_none_iff.1 hfind fitting)
  | some block => exact ⟨block, find?_sizesWithin_eq_some_iff.1 hfind⟩

/-! ## A lower cap -/

/-- The candidates within a lower cap are those within the upper one whose vectors are narrow
enough. -/
theorem sizesWithin_of_le (hcaps : lower ≤ upper) (elem : ElemType) :
    sizesWithin lower elem =
      (sizesWithin upper elem).filter fun block => blockBits elem.bytes block ≤ lower := by
  rw [sizesWithin, sizesWithin]
  cases blockSizes elem.bytes with
  | error fault => rfl
  | ok all =>
      simp only [List.filter_filter, ← Bool.decide_and]
      refine List.filter_congr fun block _ => decide_eq_decide.2 ?_
      exact (and_iff_left_of_imp fun hle => hle.trans hcaps).symm

/-- The greatest block that fits within a lower cap fills the widest register that is within the cap
and not wider than the vectors of the greatest block within the upper one. -/
theorem isGreatest_bits (hmovable : elem.movable = true) (hcaps : lower ≤ upper)
    (hnarrow : IsGreatest {block | Fits lower inputs elem block} narrow)
    (hwide : IsGreatest {block | Fits upper inputs elem block} wide) :
    IsGreatest {bits | bits ∈ registerWidths ∧ bits ≤ min lower (blockBits elem.bytes wide)}
      (blockBits elem.bytes narrow) := by
  constructor
  · obtain ⟨⟨hregister, hcap⟩, hdvd⟩ := (fits_iff_registerWidths hmovable).1 hnarrow.1
    have hle : narrow ≤ wide :=
      hwide.2 ((fits_iff_registerWidths hmovable).2 ⟨⟨hregister, hcap.trans hcaps⟩, hdvd⟩)
    exact ⟨hregister, le_min hcap (Nat.mul_le_mul_left _ hle)⟩
  · rintro bits ⟨hregister, hle⟩
    obtain ⟨block, rfl⟩ := exists_blockBits_eq hmovable hregister
    have hfits : Fits lower inputs elem block := hwide.1.of_blockBits_le hmovable hregister
      (hle.trans (Nat.min_le_left ..)) (hle.trans (Nat.min_le_right ..))
    exact Nat.mul_le_mul_left _ (hnarrow.2 hfits)

/-- A specification differs from another in its block and its vectors only: the block divides that
of the other, and the vectors are as wide as those of the other and the cap allow. -/
structure Narrowed (cap : Nat) (narrow wide : Spec) : Prop where
  same : narrow = { wide with block := narrow.block, bits := narrow.bits }
  block_dvd : narrow.block ∣ wide.block
  greatest : IsGreatest {bits | bits ∈ registerWidths ∧ bits ≤ min cap wide.bits} narrow.bits

/-- The outcome of planning within a cap beside the outcome within a higher one. Either there is a
plan in both cases, or both fail in the same way; the candidates that are named for want of a block
are those within the cap. -/
inductive Narrows (cap : Nat) (elem : ElemType) :
    Except Failure Spec → Except Failure Spec → Prop
  | planned (narrow wide : Spec) (h : Narrowed cap narrow wide) :
      Narrows cap elem (.ok narrow) (.ok wide)
  | noBlock (sizes : List Nat) :
      Narrows cap elem
        (refuse (.noBlock (sizes.filter fun block => blockBits elem.bytes block ≤ cap)))
        (refuse (.noBlock sizes))
  | failed (failure : Failure) (hother : ∀ sizes, failure ≠ .refusal (.noBlock sizes)) :
      Narrows cap elem (.error failure) (.error failure)

/-- Where planning within the lower cap comes to a failure that names no candidates, the outcome
narrows the same failure within the upper cap. -/
theorem Outcome.narrows {failure : Failure}
    (h : Outcome lower inputs output relu (.error failure))
    (hother : ∀ sizes, failure ≠ .refusal (.noBlock sizes)) :
    Narrows lower output.elem (plan lower inputs output relu) (.error failure) := by
  rw [h.plan_eq]
  exact .failed failure hother

/-- The plans with the greatest blocks within two caps differ in their blocks and vectors only. -/
theorem narrowed_spec (hmovable : output.elem.movable = true) (hcaps : lower ≤ upper)
    (hnarrow : IsGreatest {block | Fits lower inputs output.elem block} narrow)
    (hwide : IsGreatest {block | Fits upper inputs output.elem block} wide) :
    Narrowed lower (spec inputs output relu narrow) (spec inputs output relu wide) := by
  have hgreatest := isGreatest_bits hmovable hcaps hnarrow hwide
  obtain ⟨⟨hregister, -⟩, -⟩ := (fits_iff_registerWidths hmovable).1 hwide.1
  exact ⟨rfl, dvd_of_blockBits_le hgreatest.1.1 hregister
    (hgreatest.1.2.trans (Nat.min_le_right ..)), hgreatest⟩

end Plan

/-- A lower cap only narrows the vectors. -/
theorem plan_narrows {lower upper : Nat} (hcap : 128 ≤ lower) (hcaps : lower ≤ upper)
    (inputs : List Tensor) (output : Tensor) (relu : Bool) :
    Plan.Narrows lower output.elem (plan lower inputs output relu)
      (plan upper inputs output relu) := by
  have hupper : 128 ≤ upper := hcap.trans hcaps
  obtain ⟨result, houtcome⟩ := Plan.exists_outcome upper inputs output relu
  rw [houtcome.plan_eq]
  -- Whether some block fits does not depend on the cap, so the same check decides within both.
  have hfits (hmovable : output.elem.movable = true) :
      (∃ block, Plan.Fits lower inputs output.elem block) ↔
        ∃ block, Plan.Fits upper inputs output.elem block :=
    (Plan.exists_fits_iff hmovable hcap).trans (Plan.exists_fits_iff hmovable hupper).symm
  cases houtcome with
  | elemType hmovable => exact Plan.Outcome.narrows (.elemType hmovable) nofun
  | outputLayout hmovable hlayout =>
      exact Plan.Outcome.narrows (.outputLayout hmovable hlayout) nofun
  | inputs hmovable hlayout hinputs =>
      exact Plan.Outcome.narrows (.inputs hmovable hlayout hinputs) nofun
  | widthCap hready hnarrowest => exact absurd hupper (Nat.not_le.2 hnarrowest)
  | noBlock hready _ hnone =>
      have hnone : ∀ block, ¬ Plan.Fits lower inputs output.elem block := by
        rw [← not_exists, hfits hready.movable, not_exists]
        exact hnone
      rw [(Plan.Outcome.noBlock hready hcap hnone).plan_eq, Plan.sizesWithin_of_le hcaps]
      exact .noBlock _
  | inputLayout hready hfit before rest input hinputs hbefore hlayout =>
      have hlower := (hfits hready.movable).2 hfit
      exact Plan.Outcome.narrows
        (.inputLayout hready hlower before rest input hinputs hbefore hlayout) nofun
  | inputElem hready hfit before rest input hinputs hbefore hlayout helem =>
      have hlower := (hfits hready.movable).2 hfit
      exact Plan.Outcome.narrows
        (.inputElem hready hlower before rest input hinputs hbefore hlayout helem) nofun
  | planned hready hinputs wide hwide =>
      obtain ⟨narrow, hnarrow⟩ :=
        Plan.exists_isGreatest_fits ((hfits hready.movable).2 ⟨wide, hwide.1⟩)
      rw [(Plan.Outcome.planned hready hinputs narrow hnarrow).plan_eq]
      exact .planned _ _ (Plan.narrowed_spec hready.movable hcaps hnarrow hwide)

/-- Bytes of 96 and of 32 channels have vectors of 256 bits, and of 128 within a cap of 200. Bytes
of 8 channels have no plan within either cap. -/
theorem plan_narrows_bytes :
    let inputs : List Tensor :=
      [.interleaved .u8 ⟨1, 2, 2, 96⟩, .interleaved .u8 ⟨1, 2, 2, 32⟩]
    let few : List Tensor := [.interleaved .u8 ⟨1, 2, 2, 8⟩]
    let output : Tensor := .interleaved .u8 ⟨1, 2, 2, 128⟩
    let narrow : Spec := ⟨2, true, .u8, 1, 16, 128, ⟨1, 2, 2, 128⟩⟩
    let wide : Spec := ⟨2, true, .u8, 1, 32, 256, ⟨1, 2, 2, 128⟩⟩
    128 ≤ 200 ∧ 200 ≤ 1000 ∧
      plan 200 inputs output true = .ok narrow ∧ plan 1000 inputs output true = .ok wide ∧
      Plan.Narrowed 200 narrow wide ∧
      plan 200 few output true = refuse (.noBlock [16]) ∧
      plan 1000 few output true = refuse (.noBlock [64, 32, 16]) ∧
      Plan.Narrows 200 .u8 (plan 200 few output true) (plan 1000 few output true) := by
  intro inputs few output narrow wide
  have hcap : 128 ≤ 200 := by decide
  have hcaps : 200 ≤ 1000 := by decide
  have hnarrow : plan 200 inputs output true = .ok narrow := by decide +kernel
  have hwide : plan 1000 inputs output true = .ok wide := by decide +kernel
  have hnarrows := plan_narrows hcap hcaps inputs output true
  rw [hnarrow, hwide] at hnarrows
  cases hnarrows with
  | planned _ _ hnarrowed =>
      exact ⟨hcap, hcaps, hnarrow, hwide, hnarrowed, by decide +kernel, by decide +kernel,
        plan_narrows hcap hcaps few output true⟩

end ChannelConcat
