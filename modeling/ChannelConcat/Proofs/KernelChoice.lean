import ChannelConcat.Proofs.Preparation
import ChannelConcat.Proofs.WidthCaps

/-!
# The choice of the kernel

A concatenation is prepared with a generated routine exactly where the compiler can run its code,
some register is within its cap, and all channel counts are multiples of the least block; the
routine is then that of the compiler's plan, and its block counts are exact. Preparing never faults.
Main statement: `Concat.prepare_picks_kernel`.
-/

namespace ChannelConcat

/-- For shapes that fit there is a plan exactly if the narrowest register is within the cap and all
channel counts are multiples of the least block. -/
theorem exists_plan_iff_of_fit (maxBits : Nat) {inputs : List Tensor} {output : Tensor}
    (relu : Bool) (hfit : Shape.Fit inputs output) (hinputs : inputs.length ≤ Plan.maxInputs) :
    (∃ spec, plan maxBits inputs output relu = .ok spec) ↔
      128 ≤ maxBits ∧ ∀ input ∈ inputs, Plan.leastBlock output.elem ∣ input.channels := by
  constructor
  · rintro ⟨spec, hplan⟩
    cases plan_eq_iff_outcome.1 hplan with
    | planned hready hagrees block hgreatest =>
        have hcap := hgreatest.1.le_cap hready.movable
        exact ⟨hcap, (Plan.exists_fits_iff hready.movable hcap).1 ⟨block, hgreatest.1⟩⟩
  · rintro ⟨hcap, hdvd⟩
    obtain ⟨block, hgreatest⟩ :=
      Plan.exists_isGreatest_fits ((Plan.exists_fits_iff hfit.movable hcap).2 hdvd)
    refine ⟨_, plan_eq_iff_outcome.2 (.planned ⟨hfit.movable, hfit.layout, hinputs⟩ ?_ block
      hgreatest)⟩
    exact fun input hinput => ⟨(hfit.beside input hinput).layout, (hfit.beside input hinput).elem⟩

namespace Concat

variable {compiler : Compiler} {inputs : List Tensor} {output : Tensor} {relu : Bool}

/-- With fewer than `2 ^ 31` inputs preparing never faults. -/
theorem prepare_ne_breach (hinputs : inputs.length ≤ Plan.maxInputs) (fault : Fault) :
    (prepare compiler inputs output relu).result ≠ breach fault := by
  intro hbreach
  have hanswer := acceptance_eq compiler output relu hinputs
  rw [acceptance, hbreach] at hanswer
  cases hcause : (Shape.defect inputs output).or (counterDefect compiler inputs output relu) <;>
    simp [hcause, breach, refuse, Except.map] at hanswer

/-- A block counter counts the whole blocks of an input exactly. -/
structure CountsBlocks (block : Nat) (count : BitVec 32) (input : Tensor) : Prop where
  nonneg : 0 ≤ count.toInt
  mul_block : count.toInt * block = input.channels

/-- The block counters of a plan count the whole blocks of its inputs, if these fit. -/
theorem countsBlocks_of_plan {maxBits : Nat} {spec : Spec}
    (hplan : ChannelConcat.plan maxBits inputs output relu = .ok spec)
    (hfew : ∀ input ∈ inputs, input.channels / spec.block < 2 ^ 31) :
    List.Forall₂ (CountsBlocks spec.block)
      (inputs.map fun input => BitVec.ofNat 32 (input.channels / spec.block)) inputs := by
  obtain ⟨block, hsettled⟩ := exists_settled_of_plan hplan
  have hblock : spec.block = block := by
    rw [hsettled.spec_eq]
    rfl
  rw [List.forall₂_map_left_iff, List.forall₂_same]
  intro input hinput
  have hcount := toInt_ofNat_of_lt (hfew input hinput)
  have hwhole : spec.block ∣ input.channels :=
    Nat.dvd_of_mod_eq_zero (hblock ▸ hsettled.whole input hinput)
  refine ⟨hcount ▸ Int.natCast_nonneg _, ?_⟩
  rw [hcount, ← Int.natCast_mul, Nat.div_mul_cancel hwhole]

/-- With fewer than `2 ^ 31` inputs preparing a concatenation never faults. One that is prepared
has a generated routine exactly if the compiler can run its code, the narrowest register is within
the compiler's cap, and all channel counts are multiples of the least block; the routine is then for
the compiler's plan, and the block counters count the whole blocks of the inputs. -/
theorem prepare_picks_kernel (compiler : Compiler) (inputs : List Tensor) (output : Tensor)
    (relu : Bool) (hinputs : inputs.length < 2 ^ 31) :
    (∀ fault, (prepare compiler inputs output relu).result ≠ breach fault) ∧
    ∀ concat, (prepare compiler inputs output relu).result = .ok concat →
      (concat.isGenerated = true ↔ compiler.canRun = true ∧ 128 ≤ compiler.maxBits ∧
        ∀ input ∈ inputs, Plan.leastBlock output.elem ∣ input.channels) ∧
      ∀ handle counts, concat.kernel = .generated handle counts →
        (compiler.plan inputs output relu).result = .ok handle.routine.spec ∧
          List.Forall₂ (CountsBlocks handle.routine.spec.block) counts inputs := by
  have hle : inputs.length ≤ Plan.maxInputs := Nat.le_of_lt_succ hinputs
  refine ⟨prepare_ne_breach hle, fun concat hconcat => ?_⟩
  obtain ⟨hdefect, hkernel, -⟩ := kernel_of_prepare hconcat
  have hpicked := picked_of_chooseKernel hkernel
  rw [isGenerated, ← exists_plan_iff_of_fit compiler.maxBits relu
    (Shape.defect_eq_none_iff.1 hdefect) hle]
  generalize concat.kernel = kernel at hpicked ⊢
  cases hpicked with
  | generated handle hcan hplan hfew =>
      refine ⟨iff_of_true rfl ⟨hcan, _, hplan⟩, ?_⟩
      rintro _ _ ⟨⟩
      exact ⟨(compiler.result_plan inputs output relu).trans hplan, countsBlocks_of_plan hplan hfew⟩
  | scalar hnone =>
      refine ⟨iff_of_false nofun ?_, nofun⟩
      rintro ⟨hcan, spec, hplan⟩
      exact hnone hcan spec hplan

/-- A compiler whose options allow 300 bits copies bytes of 96 and of 32 channels in three blocks
and in one, and bytes of 24 channels element by element. -/
theorem prepare_picks_kernel_bytes :
    let compiler : Compiler := { host := .avx512, isa := .avx512, options := { maxBits := 300 } }
    let inputs : List Tensor :=
      [.interleaved .u8 ⟨1, 2, 2, 96⟩, .interleaved .u8 ⟨1, 2, 2, 32⟩]
    let output : Tensor := .interleaved .u8 ⟨1, 2, 2, 128⟩
    let few : Tensor := .interleaved .u8 ⟨1, 2, 2, 24⟩
    (inputs.length < 2 ^ 31 ∧ ∃ concat handle,
      (prepare compiler inputs output true).result = .ok concat ∧
        concat.kernel = .generated handle [3, 1] ∧
        (compiler.plan inputs output true).result = .ok handle.routine.spec ∧
        List.Forall₂ (CountsBlocks handle.routine.spec.block) [3, 1] inputs) ∧
    [few].length < 2 ^ 31 ∧ ∃ concat,
      (prepare compiler [few] few true).result = .ok concat ∧ concat.isGenerated = false := by
  intro compiler inputs output few
  have hplan : ChannelConcat.plan compiler.maxBits inputs output true =
      .ok ⟨2, true, .u8, 1, 32, 256, ⟨1, 2, 2, 128⟩⟩ := by decide +kernel
  have hdefect : Shape.defect inputs output = none := by decide +kernel
  obtain ⟨concat, handle, hconcat, hkernel⟩ := exists_prepare_of_plan hdefect (by decide +kernel)
    hplan (by decide +kernel)
  have hcounts : concat.kernel = .generated handle [3, 1] := hkernel
  obtain ⟨-, hgenerated⟩ := prepare_picks_kernel compiler inputs output true (by decide)
  obtain ⟨hspec, hexact⟩ := (hgenerated concat hconcat).2 handle [3, 1] hcounts
  refine ⟨⟨by decide, concat, handle, hconcat, hcounts, hspec, hexact⟩, by decide, ?_⟩
  have haccepted : acceptance compiler [few] few true = .ok () := by decide +kernel
  cases hfew : (prepare compiler [few] few true).result with
  | error failure =>
      rw [acceptance, hfew] at haccepted
      cases haccepted
  | ok scalar =>
      obtain ⟨-, hscalar⟩ := prepare_picks_kernel compiler [few] few true (by decide)
      exact ⟨scalar, rfl, Bool.eq_false_iff.2 ((hscalar scalar hfew).1.not.2 (by decide))⟩

end Concat

end ChannelConcat
