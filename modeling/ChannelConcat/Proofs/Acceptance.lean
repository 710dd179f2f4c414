import ChannelConcat.Proofs.Preparation

/-!
# What acceptance depends on

Whether a concatenation is accepted depends on its shapes alone, but for one cause: a compiler that
would run generated code refuses an input with too many blocks for its counter, and does not fall
back to the copy element by element. Main statement: `acceptance_eq_acceptance_iff`.
-/

namespace ChannelConcat.Concat

/-- For fewer than `2 ^ 31` inputs two compilers give the same answer exactly if the shapes have a
defect or the same block count, if any, does not fit for both. A compiler refuses shapes without a
defect exactly for such a block count, and none faults. -/
theorem acceptance_eq_acceptance_iff (first second : Compiler) (inputs : List Tensor)
    (output : Tensor) (relu : Bool) (hinputs : inputs.length < 2 ^ 31) :
    (acceptance first inputs output relu = acceptance second inputs output relu ↔
      Shape.defect inputs output ≠ none ∨
        counterDefect first inputs output relu = counterDefect second inputs output relu) ∧
    ∀ compiler : Compiler,
      (Shape.defect inputs output = none →
        ∀ cause, acceptance compiler inputs output relu = refuse cause ↔
          counterDefect compiler inputs output relu = some cause) ∧
      ∀ fault, acceptance compiler inputs output relu ≠ breach fault := by
  have hle : inputs.length ≤ Plan.maxInputs := Nat.le_of_lt_succ hinputs
  have hanswer (compiler : Compiler) := acceptance_eq compiler output relu hle
  refine ⟨?_, fun compiler => ⟨?_, ?_⟩⟩
  · rw [hanswer first, hanswer second]
    cases hdefect : Shape.defect inputs output with
    | some defect => simp
    | none =>
        cases counterDefect first inputs output relu <;>
          cases counterDefect second inputs output relu <;> simp [refuse]
  · intro hdefect cause
    rw [hanswer compiler, hdefect]
    cases counterDefect compiler inputs output relu <;> simp [refuse]
  · intro fault
    rw [hanswer compiler]
    cases (Shape.defect inputs output).or (counterDefect compiler inputs output relu) <;>
      simp [refuse, breach]

/-- An input without positions whose channels are `2 ^ 31` blocks of eight. -/
def wideInput : Tensor :=
  .interleaved .f32 ⟨0, 1, 1, 2 ^ 34⟩

/-- The answers of two compilers to the wide input, one without vectors and one with them. -/
theorem acceptance_eq_acceptance_iff_wideInput :
    let scalar : Compiler := { host := .avx2, isa := .scalar }
    let vector : Compiler := { host := .avx2, isa := .avx2 }
    [wideInput].length < 2 ^ 31 ∧
      (acceptance scalar [wideInput] wideInput false =
        acceptance vector [wideInput] wideInput false ↔
        Shape.defect [wideInput] wideInput ≠ none ∨
          counterDefect scalar [wideInput] wideInput false =
            counterDefect vector [wideInput] wideInput false) ∧
      ∀ compiler : Compiler,
        (Shape.defect [wideInput] wideInput = none →
          ∀ cause, acceptance compiler [wideInput] wideInput false = refuse cause ↔
            counterDefect compiler [wideInput] wideInput false = some cause) ∧
        ∀ fault, acceptance compiler [wideInput] wideInput false ≠ breach fault :=
  ⟨by decide, acceptance_eq_acceptance_iff _ _ _ _ _ (by decide)⟩

/-- The wide input is accepted without vectors, with nothing to be copied, and refused with them. -/
theorem acceptance_wideInput :
    acceptance { host := .avx2, isa := .scalar } [wideInput] wideInput false = .ok () ∧
      acceptance { host := .avx2, isa := .avx2 } [wideInput] wideInput false =
        refuse (.unsupported (.blockCounter (2 ^ 34))) := by
  refine ⟨rfl, ?_⟩
  rw [acceptance_eq _ _ _ (by decide)]
  rfl

end ChannelConcat.Concat
