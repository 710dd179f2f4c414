import ChannelConcat.Proofs.Preparation

/-!
# Defects of shapes

Shapes that do not fit have a first defect in the order of the checks: of the output on its own, of
the first input that does not agree with it, of the first input whose elements cannot be counted, of
the element count of the output, of the channels. Where no generated code can run, this alone
decides whether a concatenation is prepared. Main definition: `Shape.FirstDefect`. Main statements:
`Shape.defect_eq_some_iff`, `Concat.prepare_exact`.
-/

namespace ChannelConcat

namespace Shape

variable {inputs : List Tensor} {output : Tensor} {cause : Refusal}

/-! ## Single checks -/

/-- The defect of an output on its own is that of its layout, or else of its element type. -/
theorem outputDefect_eq_some_iff :
    outputDefect output = some cause ↔
      output.layout ≠ .interleaved ∧ cause = .unsupported (.outputLayout output.layout) ∨
      output.layout = .interleaved ∧ output.elem.movable = false ∧
        cause = .elemType output.elem := by
  unfold outputDefect
  split
  · simp_all [eq_comm (a := cause)]
  · split <;> simp_all [eq_comm (a := cause)]

/-- The defect of an input beside the output is that of its layout, or else of its element type, or
else of the dimensions that count positions. -/
theorem inputDefect_eq_some_iff {input : Tensor} {index : Nat} :
    inputDefect output input index = some cause ↔
      input.layout ≠ .interleaved ∧ cause = .layout index .interleaved input.layout ∨
      input.layout = .interleaved ∧ input.elem ≠ output.elem ∧
        cause = .inputElem index output.elem input.elem ∨
      input.layout = .interleaved ∧ input.elem = output.elem ∧
        input.dims.spatial ≠ output.dims.spatial ∧
        cause = .shape (.spatial index output.dims input.dims) := by
  unfold inputDefect
  split
  · simp_all [eq_comm (a := cause)]
  · split
    · simp_all [eq_comm (a := cause)]
    · split <;> simp_all [eq_comm (a := cause)]

/-- The element count of an input has a defect exactly if it is no size. -/
theorem inputCountDefect_eq_some_iff {input : Tensor} {index : Nat} :
    inputCountDefect input index = some cause ↔
      Size.limit ≤ input.positions * input.channels ∧
        cause = .shape (.inputElements index input.dims) := by
  rw [← Tensor.elements?_eq_none_iff, inputCountDefect]
  split <;> simp_all [eq_comm (a := cause)]

/-- The element count of an output has a defect exactly if it is no size. -/
theorem outputCountDefect_eq_some_iff :
    outputCountDefect output = some cause ↔
      Size.limit ≤ output.positions * output.channels ∧
        cause = .shape (.outputElements output.dims) := by
  rw [← Tensor.elements?_eq_none_iff, outputCountDefect]
  split <;> simp_all [eq_comm (a := cause)]

/-- The defect of the channels is that of their sum, or else of the output's number of them. -/
theorem channelsDefect_eq_some_iff :
    channelsDefect inputs output = some cause ↔
      Size.limit ≤ (inputs.map Tensor.channels).sum ∧
        cause = .shape (.channelTotal inputs.length) ∨
      (inputs.map Tensor.channels).sum < Size.limit ∧
        (inputs.map Tensor.channels).sum ≠ output.channels ∧
        cause = .shape (.outputChannels (inputs.map Tensor.channels).sum output.channels) := by
  rw [channelsDefect]
  by_cases hlimit : (inputs.map Tensor.channels).sum < Size.limit
  · rw [Size.sum?_eq_some_iff.2 ⟨rfl, hlimit⟩]
    simp only [hlimit, Nat.not_le.2 hlimit, false_and, false_or, true_and]
    split <;> simp_all [eq_comm (a := cause)]
  · have hnone : Size.sum? (inputs.map Tensor.channels) = none := by
      rw [Size.sum?, Size.sum_eq_error_of_le (Nat.le_of_not_lt hlimit)]
      rfl
    simp only [hnone, hlimit, Nat.le_of_not_lt hlimit, Option.some.injEq, false_and, or_false,
      true_and, eq_comm]

/-! ## The first defect -/

/-- An output that can be concatenated into, whatever the inputs. -/
structure Admits (output : Tensor) : Prop where
  layout : output.layout = .interleaved
  movable : output.elem.movable = true

/-- The first defect of shapes, with the checks that pass before it and the one that fails. -/
inductive FirstDefect (inputs : List Tensor) (output : Tensor) : Refusal → Prop
  /-- The output is not channel-interleaved. -/
  | outputLayout (hlayout : output.layout ≠ .interleaved) :
      FirstDefect inputs output (.unsupported (.outputLayout output.layout))
  /-- The elements of the output cannot be moved. -/
  | outputElem (hlayout : output.layout = .interleaved) (hmovable : output.elem.movable = false) :
      FirstDefect inputs output (.elemType output.elem)
  /-- The first input that does not agree with the output is not channel-interleaved. -/
  | inputLayout (houtput : Admits output) (before rest : List Tensor) (input : Tensor)
      (hinputs : inputs = before ++ input :: rest)
      (hbefore : ∀ earlier ∈ before, Beside output earlier)
      (hlayout : input.layout ≠ .interleaved) :
      FirstDefect inputs output (.layout before.length .interleaved input.layout)
  /-- The first input that does not agree with the output is channel-interleaved, but has another
  element type. -/
  | inputElem (houtput : Admits output) (before rest : List Tensor) (input : Tensor)
      (hinputs : inputs = before ++ input :: rest)
      (hbefore : ∀ earlier ∈ before, Beside output earlier)
      (hlayout : input.layout = .interleaved) (helem : input.elem ≠ output.elem) :
      FirstDefect inputs output (.inputElem before.length output.elem input.elem)
  /-- The first input that does not agree with the output has its layout and its element type, but
  other dimensions that count positions. -/
  | inputSpatial (houtput : Admits output) (before rest : List Tensor) (input : Tensor)
      (hinputs : inputs = before ++ input :: rest)
      (hbefore : ∀ earlier ∈ before, Beside output earlier)
      (hlayout : input.layout = .interleaved) (helem : input.elem = output.elem)
      (hspatial : input.dims.spatial ≠ output.dims.spatial) :
      FirstDefect inputs output (.shape (.spatial before.length output.dims input.dims))
  /-- All inputs agree with the output, and one of them is the first with too many elements. -/
  | inputElements (houtput : Admits output) (hbeside : ∀ input ∈ inputs, Beside output input)
      (before rest : List Tensor) (input : Tensor) (hinputs : inputs = before ++ input :: rest)
      (hbefore : ∀ earlier ∈ before, earlier.positions * earlier.channels < Size.limit)
      (hlimit : Size.limit ≤ input.positions * input.channels) :
      FirstDefect inputs output (.shape (.inputElements before.length input.dims))
  /-- No input has too many elements, but the output does. -/
  | outputElements (houtput : Admits output) (hbeside : ∀ input ∈ inputs, Beside output input)
      (hcounts : ∀ input ∈ inputs, input.positions * input.channels < Size.limit)
      (hlimit : Size.limit ≤ output.positions * output.channels) :
      FirstDefect inputs output (.shape (.outputElements output.dims))
  /-- No tensor has too many elements, and the sum of the channels is no size. -/
  | channelTotal (houtput : Admits output) (hbeside : ∀ input ∈ inputs, Beside output input)
      (hcounts : ∀ input ∈ inputs, input.positions * input.channels < Size.limit)
      (hcount : output.positions * output.channels < Size.limit)
      (hlimit : Size.limit ≤ (inputs.map Tensor.channels).sum) :
      FirstDefect inputs output (.shape (.channelTotal inputs.length))
  /-- The sum of the channels is a size, but not the number of channels of the output. -/
  | outputChannels (houtput : Admits output) (hbeside : ∀ input ∈ inputs, Beside output input)
      (hcounts : ∀ input ∈ inputs, input.positions * input.channels < Size.limit)
      (hcount : output.positions * output.channels < Size.limit)
      (hlimit : (inputs.map Tensor.channels).sum < Size.limit)
      (hchannels : (inputs.map Tensor.channels).sum ≠ output.channels) :
      FirstDefect inputs output
        (.shape (.outputChannels (inputs.map Tensor.channels).sum output.channels))

/-- Shapes are refused for the defect that is the first in the order of the checks. -/
theorem defect_eq_some_iff :
    defect inputs output = some cause ↔ FirstDefect inputs output cause := by
  simp only [defect, Option.or_eq_some_iff, outputDefect_eq_none_iff, outputDefect_eq_some_iff,
    firstDefect_eq_none_iff (inputDefect_eq_none_iff output),
    firstDefect_eq_some_iff (inputDefect_eq_none_iff output), inputDefect_eq_some_iff,
    firstDefect_eq_none_iff inputCountDefect_eq_none_iff,
    firstDefect_eq_some_iff inputCountDefect_eq_none_iff, inputCountDefect_eq_some_iff,
    outputCountDefect_eq_none_iff, outputCountDefect_eq_some_iff, channelsDefect_eq_some_iff]
  constructor
  · -- One check after the other: it fails here, or it passes and the defect is a later one.
    intro h
    rcases h with (⟨hlayout, rfl⟩ | ⟨hlayout, hmovable, rfl⟩) | ⟨⟨hlayout, hmovable⟩, h⟩
    · exact .outputLayout hlayout
    · exact .outputElem hlayout hmovable
    have houtput : Admits output := ⟨hlayout, hmovable⟩
    rcases h with ⟨before, input, rest, hinputs, hbefore, h⟩ | ⟨hbeside, h⟩
    · rcases h with ⟨hlayout, rfl⟩ | ⟨hlayout, helem, rfl⟩ | ⟨hlayout, helem, hspatial, rfl⟩
      · exact .inputLayout houtput before rest input hinputs hbefore hlayout
      · exact .inputElem houtput before rest input hinputs hbefore hlayout helem
      · exact .inputSpatial houtput before rest input hinputs hbefore hlayout helem hspatial
    rcases h with ⟨before, input, rest, hinputs, hbefore, hlimit, rfl⟩ | ⟨hcounts, h⟩
    · exact .inputElements houtput hbeside before rest input hinputs hbefore hlimit
    rcases h with ⟨hlimit, rfl⟩ | ⟨hcount, h⟩
    · exact .outputElements houtput hbeside hcounts hlimit
    rcases h with ⟨hlimit, rfl⟩ | ⟨hlimit, hchannels, rfl⟩
    · exact .channelTotal houtput hbeside hcounts hcount hlimit
    · exact .outputChannels houtput hbeside hcounts hcount hlimit hchannels
  · intro h
    cases h with
    | outputLayout hlayout => exact .inl (.inl ⟨hlayout, rfl⟩)
    | outputElem hlayout hmovable => exact .inl (.inr ⟨hlayout, hmovable, rfl⟩)
    | inputLayout houtput before rest input hinputs hbefore hlayout =>
        exact .inr ⟨⟨houtput.layout, houtput.movable⟩,
          .inl ⟨before, input, rest, hinputs, hbefore, .inl ⟨hlayout, rfl⟩⟩⟩
    | inputElem houtput before rest input hinputs hbefore hlayout helem =>
        exact .inr ⟨⟨houtput.layout, houtput.movable⟩,
          .inl ⟨before, input, rest, hinputs, hbefore, .inr (.inl ⟨hlayout, helem, rfl⟩)⟩⟩
    | inputSpatial houtput before rest input hinputs hbefore hlayout helem hspatial =>
        exact .inr ⟨⟨houtput.layout, houtput.movable⟩,
          .inl ⟨before, input, rest, hinputs, hbefore,
            .inr (.inr ⟨hlayout, helem, hspatial, rfl⟩)⟩⟩
    | inputElements houtput hbeside before rest input hinputs hbefore hlimit =>
        exact .inr ⟨⟨houtput.layout, houtput.movable⟩,
          .inr ⟨hbeside, .inl ⟨before, input, rest, hinputs, hbefore, hlimit, rfl⟩⟩⟩
    | outputElements houtput hbeside hcounts hlimit =>
        exact .inr ⟨⟨houtput.layout, houtput.movable⟩,
          .inr ⟨hbeside, .inr ⟨hcounts, .inl ⟨hlimit, rfl⟩⟩⟩⟩
    | channelTotal houtput hbeside hcounts hcount hlimit =>
        exact .inr ⟨⟨houtput.layout, houtput.movable⟩,
          .inr ⟨hbeside, .inr ⟨hcounts, .inr ⟨hcount, .inl ⟨hlimit, rfl⟩⟩⟩⟩⟩
    | outputChannels houtput hbeside hcounts hcount hlimit hchannels =>
        exact .inr ⟨⟨houtput.layout, houtput.movable⟩,
          .inr ⟨hbeside, .inr ⟨hcounts, .inr ⟨hcount, .inr ⟨hlimit, hchannels, rfl⟩⟩⟩⟩⟩

end Shape

namespace Concat

variable {compiler : Compiler} {inputs : List Tensor} {output : Tensor} {relu : Bool}

/-- Where the compiler cannot run its code, shapes without a defect are prepared with the copy
element by element. -/
theorem result_prepare_of_not_canRun (hcan : compiler.canRun = false) :
    (prepare compiler inputs output relu).result =
      match Shape.defect inputs output with
      | some cause => refuse cause
      | none => .ok ⟨inputs, output, relu, compiler.options.parallelFrom, .scalar⟩ := by
  rw [prepare, chooseKernel, if_neg (by simp [hcan])]
  cases Shape.defect inputs output <;> rfl

/-- Where the compiler cannot run its code, a concatenation is prepared exactly if its shapes fit,
and it is refused otherwise for the first defect of the shapes. -/
theorem prepare_exact (compiler : Compiler) (hcan : compiler.canRun = false)
    (inputs : List Tensor) (output : Tensor) (relu : Bool) :
    (∀ concat, (prepare compiler inputs output relu).result = .ok concat ↔
      Shape.Fit inputs output ∧
        concat = ⟨inputs, output, relu, compiler.options.parallelFrom, .scalar⟩) ∧
    ∀ failure, (prepare compiler inputs output relu).result = .error failure ↔
      ∃ cause, failure = .refusal cause ∧ Shape.FirstDefect inputs output cause := by
  simp only [result_prepare_of_not_canRun hcan, ← Shape.defect_eq_none_iff,
    ← Shape.defect_eq_some_iff]
  cases Shape.defect inputs output with
  | none => simp [eq_comm]
  | some cause => simp [refuse, eq_comm]

/-- Bytes of 8 and of 16 channels are concatenated into 24. An input of other positions is refused
rather than the input before it, which has too many elements, or the planar one behind it. -/
theorem prepare_exact_bytes :
    let compiler : Compiler := { host := .avx512, isa := .scalar }
    let few : Tensor := .interleaved .u8 ⟨1, 2, 2, 8⟩
    let more : Tensor := .interleaved .u8 ⟨1, 2, 2, 16⟩
    let output : Tensor := .interleaved .u8 ⟨1, 2, 2, 24⟩
    let countless : Tensor := .interleaved .u8 ⟨1, 2, 2, 2 ^ 63⟩
    let shifted : Tensor := .interleaved .u8 ⟨1, 4, 1, 16⟩
    let planar : Tensor := { few with layout := .planar }
    compiler.canRun = false ∧
      (prepare compiler [few, more] output true).result =
        .ok ⟨[few, more], output, true, 1024, .scalar⟩ ∧
      Shape.Fit [few, more] output ∧
      (prepare compiler [countless, shifted, planar] output true).result =
        refuse (.shape (.spatial 1 output.dims shifted.dims)) ∧
      Shape.FirstDefect [countless, shifted, planar] output
        (.shape (.spatial 1 output.dims shifted.dims)) := by
  intro compiler few more output countless shifted planar
  have hprepared : (prepare compiler [few, more] output true).result =
      .ok ⟨[few, more], output, true, 1024, .scalar⟩ := rfl
  have hrefused : (prepare compiler [countless, shifted, planar] output true).result =
      refuse (.shape (.spatial 1 output.dims shifted.dims)) := rfl
  have hfit := ((prepare_exact compiler rfl [few, more] output true).1 _).1 hprepared
  obtain ⟨cause, hcause, hdefect⟩ :=
    ((prepare_exact compiler rfl [countless, shifted, planar] output true).2 _).1 hrefused
  cases hcause
  exact ⟨rfl, hprepared, hfit.1, hrefused, hdefect⟩

end Concat

end ChannelConcat
