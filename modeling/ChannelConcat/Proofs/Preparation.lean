import ChannelConcat.Proofs.Planning

/-!
# Prepared concatenations

What a compiler answers when a concatenation is prepared, whatever its cache holds: a routine is for
the planned specification, its block counts are the whole blocks of the inputs, and a refusal names
a defect of the shapes or a block count that does not fit. Main statements: `Concat.acceptance_eq`,
`Concat.valid_of_prepare`.
-/

namespace ChannelConcat

/-- The handle that is found for a specification is kept in the cache for it. -/
theorem Cache.of_find?_eq_some {cache : Cache} {spec : Spec} {handle : Handle}
    (h : cache.find? spec = some handle) :
    handle ∈ cache.entries ∧ handle.routine.spec = spec := by
  have hspec := List.find?_some h
  rw [decide_eq_true_eq] at hspec
  exact ⟨List.mem_of_find?_eq_some h, hspec⟩

namespace Compiler

variable {compiler : Compiler} {spec : Spec} {handle : Handle} {code : List Byte}

/-- A lookup that finds a routine counts as a hit and changes nothing else. -/
theorem compileSpec_of_hit (hgenerate : compiler.options.generate = true)
    (hfind : compiler.cache.find? spec = some handle) :
    compiler.compileSpec spec =
      ⟨.ok handle,
        { compiler with cache := { compiler.cache with hits := compiler.cache.hits + 1 } },
        [.found spec]⟩ := by
  simp only [compileSpec, if_pos hgenerate, Cache.get, hfind]

/-- A lookup that finds nothing counts as a miss, and the code that is generated then is shared and
kept. -/
theorem compileSpec_of_miss (hgenerate : compiler.options.generate = true)
    (hfind : compiler.cache.find? spec = none) (hcode : generate compiler.isa spec = .ok code) :
    compiler.compileSpec spec =
      let routine : Routine := ⟨spec, code, ne_nil_of_generate hcode⟩
      let counted : Cache := { compiler.cache with misses := compiler.cache.misses + 1 }
      ⟨.ok (counted.put routine).1, { compiler with cache := (counted.put routine).2 },
        Event.ofCode spec code⟩ := by
  simp only [compileSpec, if_pos hgenerate, Cache.get, hfind, build, hcode, Routine.ofCode,
    dif_neg (ne_nil_of_generate hcode)]

/-- Where nothing is found and no code can be generated, only the miss is counted. -/
theorem compileSpec_of_error {failure : Failure} (hgenerate : compiler.options.generate = true)
    (hfind : compiler.cache.find? spec = none)
    (hcode : generate compiler.isa spec = .error failure) :
    compiler.compileSpec spec =
      ⟨.error failure,
        { compiler with cache := { compiler.cache with misses := compiler.cache.misses + 1 } },
        []⟩ := by
  simp only [compileSpec, if_pos hgenerate, Cache.get, hfind, build, hcode]

/-- A compiler that may not generate code refuses every specification. -/
theorem compileSpec_of_disabled (hgenerate : ¬ compiler.options.generate = true) :
    compiler.compileSpec spec = ⟨refuse (.unsupported .disabled), compiler, []⟩ := by
  rw [compileSpec, if_neg hgenerate]

/-- A routine that is found or built for a specification is a routine of that specification. -/
theorem spec_of_compileSpec (h : (compiler.compileSpec spec).result = .ok handle) :
    handle.routine.spec = spec := by
  by_cases hgenerate : compiler.options.generate = true
  · cases hfind : compiler.cache.find? spec with
    | some found =>
        rw [compileSpec_of_hit hgenerate hfind] at h
        cases h
        exact (Cache.of_find?_eq_some hfind).2
    | none =>
        cases hcode : generate compiler.isa spec with
        | error failure =>
            rw [compileSpec_of_error hgenerate hfind hcode] at h
            cases h
        | ok code =>
            rw [compileSpec_of_miss hgenerate hfind hcode] at h
            cases h
            rfl
  · rw [compileSpec_of_disabled hgenerate] at h
    cases h

/-- A compiler that may generate code has a routine wherever code can be generated. -/
theorem exists_compileSpec (hgenerate : compiler.options.generate = true)
    (hcode : generate compiler.isa spec = .ok code) :
    ∃ handle, (compiler.compileSpec spec).result = .ok handle := by
  cases hfind : compiler.cache.find? spec with
  | some found => exact ⟨found, by rw [compileSpec_of_hit hgenerate hfind]⟩
  | none => exact ⟨_, by rw [compileSpec_of_miss hgenerate hfind hcode]⟩

variable {inputs : List Tensor} {output : Tensor} {relu : Bool}

/-- What a compiler plans is the plan within its vectors. -/
theorem result_plan (compiler : Compiler) (inputs : List Tensor) (output : Tensor) (relu : Bool) :
    (compiler.plan inputs output relu).result =
      ChannelConcat.plan compiler.maxBits inputs output relu := by
  rw [Compiler.plan]
  split <;> exact Eq.symm ‹_›

/-- Compiling a concatenation is compiling its plan. -/
theorem result_compile_of_plan
    (hplan : ChannelConcat.plan compiler.maxBits inputs output relu = .ok spec) :
    (compiler.compile inputs output relu).result = (compiler.compileSpec spec).result := by
  simp only [compile, Compiler.plan, hplan, Response.andThen]

/-- A concatenation without a plan is not compiled, for the same cause. -/
theorem result_compile_of_plan_error {failure : Failure}
    (hplan : ChannelConcat.plan compiler.maxBits inputs output relu = .error failure) :
    (compiler.compile inputs output relu).result = .error failure := by
  simp only [compile, Compiler.plan, hplan, Response.andThen]

end Compiler

namespace Concat

variable {inputs : List Tensor} {output : Tensor} {relu : Bool}

/-! ## Block counts -/

/-- The block counter of an input, if its blocks fit into a signed word. -/
theorem blockCount_eq {spec : Spec} (h : spec.block ≠ 0) (input : Tensor) :
    blockCount spec input =
      if input.channels / spec.block < 2 ^ 31 then
        .ok (BitVec.ofNat 32 (input.channels / spec.block))
      else refuse (.unsupported (.blockCounter input.channels)) := by
  rw [blockCount, Spec.blocksIn, Size.div_eq_ok_iff.2 ⟨h, rfl⟩]
  rfl

/-- The input does not fit into the block counter of a routine. -/
def exceedsCounter (spec : Spec) (input : Tensor) : Bool :=
  2 ^ 31 ≤ input.channels / spec.block

/-- The block counters of all inputs, unless one of them does not fit; the first of these is
refused. -/
theorem mapM_blockCount {spec : Spec} (h : spec.block ≠ 0) (inputs : List Tensor) :
    inputs.mapM (blockCount spec) =
      match inputs.find? (exceedsCounter spec) with
      | none => .ok (inputs.map fun input => BitVec.ofNat 32 (input.channels / spec.block))
      | some input => refuse (.unsupported (.blockCounter input.channels)) := by
  induction inputs with
  | nil => rfl
  | cons input inputs ih =>
      rw [List.mapM_cons, blockCount_eq h, ih, List.find?_cons, exceedsCounter]
      by_cases hfits : input.channels / spec.block < 2 ^ 31
      · rw [if_pos hfits, decide_eq_false (Nat.not_le.2 hfits)]
        simp only
        cases inputs.find? (exceedsCounter spec) <;> rfl
      · rw [if_neg hfits, decide_eq_true (Nat.le_of_not_lt hfits)]
        rfl

/-! ## Kernels -/

variable {compiler : Compiler}

/-- The refusal of shapes that fit: the compiler would run generated code, and an input has more
blocks of the plan than fit into a block counter. -/
def counterDefect (compiler : Compiler) (inputs : List Tensor) (output : Tensor) (relu : Bool) :
    Option Refusal :=
  match compiler.canRun, ChannelConcat.plan compiler.maxBits inputs output relu with
  | true, .ok spec => (inputs.find? (exceedsCounter spec)).map fun input =>
      .unsupported (.blockCounter input.channels)
  | _, _ => none

/-- A compiler that can run its code may generate it. -/
theorem generate_of_canRun (h : compiler.canRun = true) :
    compiler.options.generate = true := by
  simp only [Compiler.canRun, Bool.and_eq_true] at h
  exact h.1.1

/-- A compiler that may generate code has a routine for every plan. -/
theorem exists_handle_of_plan {spec : Spec} (hgenerate : compiler.options.generate = true)
    (hplan : ChannelConcat.plan compiler.maxBits inputs output relu = .ok spec) :
    ∃ handle, (compiler.compile inputs output relu).result = .ok handle ∧
      handle.routine.spec = spec := by
  obtain ⟨code, hcode⟩ := exists_generate_of_plan hplan (Nat.min_le_left ..)
  obtain ⟨handle, hhandle⟩ := Compiler.exists_compileSpec hgenerate hcode
  exact ⟨handle, (Compiler.result_compile_of_plan hplan).trans hhandle,
    Compiler.spec_of_compileSpec hhandle⟩

/-- The block of a plan is not empty. -/
theorem block_ne_zero_of_plan {maxBits : Nat} {spec : Spec}
    (hplan : ChannelConcat.plan maxBits inputs output relu = .ok spec) : spec.block ≠ 0 := by
  obtain ⟨block, hsettled⟩ := exists_settled_of_plan hplan
  intro hzero
  rw [hsettled.spec_eq] at hzero
  have hwidth := hsettled.width
  rw [show block = 0 from hzero, Plan.blockBits, Nat.mul_zero] at hwidth
  exact absurd hwidth (by decide)

/-- The kernel that is picked where the compiler can run its code and there is a plan: the routine
of the plan with its block counts, if these fit. -/
theorem result_chooseKernel_of_plan {spec : Spec} (hcan : compiler.canRun = true)
    (hplan : ChannelConcat.plan compiler.maxBits inputs output relu = .ok spec) :
    ∃ handle, handle.routine.spec = spec ∧
      (chooseKernel compiler inputs output relu).result =
        match inputs.find? (exceedsCounter spec) with
        | none => .ok (.generated handle
            (inputs.map fun input => BitVec.ofNat 32 (input.channels / spec.block)))
        | some input => refuse (.unsupported (.blockCounter input.channels)) := by
  obtain ⟨handle, hhandle, hspec⟩ := exists_handle_of_plan (generate_of_canRun hcan) hplan
  refine ⟨handle, hspec, ?_⟩
  simp only [chooseKernel, if_pos hcan, hhandle, hspec,
    mapM_blockCount (block_ne_zero_of_plan hplan)]
  cases inputs.find? (exceedsCounter spec) <;> rfl

/-- The scalar kernel is picked where the compiler cannot run its code. -/
theorem result_chooseKernel_of_not_canRun (hcan : ¬ compiler.canRun = true) :
    (chooseKernel compiler inputs output relu).result = .ok .scalar := by
  rw [chooseKernel, if_neg hcan]

/-- The scalar kernel is picked where there is no plan, for a cause that allows it. -/
theorem result_chooseKernel_of_refuse {cause : Refusal} (hcan : compiler.canRun = true)
    (hplan : ChannelConcat.plan compiler.maxBits inputs output relu = refuse cause) :
    (chooseKernel compiler inputs output relu).result =
      if allowsFallback cause then .ok .scalar else refuse cause := by
  simp only [chooseKernel, if_pos hcan, Compiler.result_compile_of_plan_error hplan]
  split <;> rfl

/-- For shapes that fit a kernel is picked, unless an input has too many blocks for its counter. -/
theorem result_chooseKernel (compiler : Compiler) (relu : Bool)
    (hfit : Shape.Fit inputs output) (hinputs : inputs.length ≤ Plan.maxInputs) :
    match counterDefect compiler inputs output relu with
    | none => ∃ kernel, (chooseKernel compiler inputs output relu).result = .ok kernel
    | some cause => (chooseKernel compiler inputs output relu).result = refuse cause := by
  by_cases hcan : compiler.canRun = true
  · obtain ⟨spec, hplan⟩ | ⟨cause, hplan, hfallback⟩ :=
      plan_of_fit compiler.maxBits relu hfit hinputs
    · obtain ⟨handle, -, hkernel⟩ := result_chooseKernel_of_plan hcan hplan
      rw [hkernel, counterDefect, hcan, hplan]
      simp only
      cases inputs.find? (exceedsCounter spec) with
      | none => exact ⟨_, rfl⟩
      | some input => rfl
    · have hnone : counterDefect compiler inputs output relu = none := by
        rw [counterDefect, hcan, hplan, refuse]
      rw [hnone]
      exact ⟨.scalar, by rw [result_chooseKernel_of_refuse hcan hplan, if_pos hfallback]⟩
  · have hnone : counterDefect compiler inputs output relu = none := by
      rw [counterDefect, Bool.eq_false_iff.2 hcan]
    rw [hnone]
    exact ⟨.scalar, result_chooseKernel_of_not_canRun hcan⟩

/-! ## Acceptance -/

/-- Whether a compiler accepts a concatenation, and why not. -/
def acceptance (compiler : Compiler) (inputs : List Tensor) (output : Tensor) (relu : Bool) :
    Except Failure Unit :=
  (prepare compiler inputs output relu).result.map fun _ => ()

/-- A concatenation with fewer than `2 ^ 31` inputs is refused for the first defect of its shapes or
for a block count that does not fit, and accepted otherwise. -/
theorem acceptance_eq (compiler : Compiler) (output : Tensor) (relu : Bool)
    (hinputs : inputs.length ≤ Plan.maxInputs) :
    acceptance compiler inputs output relu =
      match (Shape.defect inputs output).or (counterDefect compiler inputs output relu) with
      | none => .ok ()
      | some cause => refuse cause := by
  rw [acceptance, prepare]
  cases hdefect : Shape.defect inputs output with
  | some defect => rfl
  | none =>
      have hkernel := result_chooseKernel compiler relu
        (Shape.defect_eq_none_iff.1 hdefect) hinputs
      rw [Option.none_or]
      cases hcounter : counterDefect compiler inputs output relu with
      | none =>
          rw [hcounter] at hkernel
          obtain ⟨kernel, hkernel⟩ := hkernel
          simp only [Response.andThen, hkernel]
          rfl
      | some cause =>
          rw [hcounter] at hkernel
          simp only [Response.andThen, hkernel]
          rfl

/-! ## Concatenations that were prepared -/

/-- The kernel of a concatenation: a routine for a plan of its shapes with the block counts of its
inputs, or the copy element by element. -/
def Serves (inputs : List Tensor) (output : Tensor) (relu : Bool) : Kernel → Prop
  | .generated handle counts => ∃ maxBits block,
      Plan.Settled maxBits inputs output relu handle.routine.spec block ∧
        (∀ input ∈ inputs, input.channels / block < 2 ^ 31) ∧
        counts = inputs.map fun input => BitVec.ofNat 32 (input.channels / block)
  | .scalar => True

/-- A concatenation whose shapes fit and whose kernel serves them. -/
structure Valid (concat : Concat) : Prop where
  fit : Shape.Fit concat.inputs concat.output
  kernel : Serves concat.inputs concat.output concat.relu concat.kernel

/-- The kernel that is picked, and what decides for it. -/
inductive Picked (compiler : Compiler) (inputs : List Tensor) (output : Tensor) (relu : Bool) :
    Kernel → Prop
  /-- The compiler can run its code, and there is a plan whose block counts fit. -/
  | generated (handle : Handle) (hcan : compiler.canRun = true)
      (hplan : ChannelConcat.plan compiler.maxBits inputs output relu = .ok handle.routine.spec)
      (hfew : ∀ input ∈ inputs, input.channels / handle.routine.spec.block < 2 ^ 31) :
      Picked compiler inputs output relu (.generated handle
        (inputs.map fun input => BitVec.ofNat 32 (input.channels / handle.routine.spec.block)))
  /-- The compiler cannot run its code, or there is no plan. -/
  | scalar (hnone : compiler.canRun = true →
        ∀ spec, ChannelConcat.plan compiler.maxBits inputs output relu ≠ .ok spec) :
      Picked compiler inputs output relu .scalar

/-- A kernel is picked for one of the two reasons. -/
theorem picked_of_chooseKernel {kernel : Kernel}
    (h : (chooseKernel compiler inputs output relu).result = .ok kernel) :
    Picked compiler inputs output relu kernel := by
  by_cases hcan : compiler.canRun = true
  · cases hplan : ChannelConcat.plan compiler.maxBits inputs output relu with
    | ok spec =>
        obtain ⟨handle, rfl, hkernel⟩ := result_chooseKernel_of_plan hcan hplan
        rw [hkernel] at h
        cases hfind : inputs.find? (exceedsCounter handle.routine.spec) with
        | none =>
            rw [hfind] at h
            cases h
            refine .generated handle hcan hplan ?_
            intro input hinput
            simpa [exceedsCounter] using List.find?_eq_none.1 hfind input hinput
        | some input =>
            rw [hfind] at h
            cases h
    | error failure =>
        have hnone (spec : Spec) :
            ChannelConcat.plan compiler.maxBits inputs output relu ≠ .ok spec := by
          rw [hplan]
          nofun
        cases failure with
        | refusal cause =>
            rw [result_chooseKernel_of_refuse hcan hplan] at h
            split at h <;> cases h
            exact .scalar fun _ => hnone
        | fault fault =>
            simp only [chooseKernel, if_pos hcan,
              Compiler.result_compile_of_plan_error hplan] at h
            cases h
  · rw [result_chooseKernel_of_not_canRun hcan] at h
    cases h
    exact .scalar fun htrue => absurd htrue hcan

/-- Every kernel that is picked serves the shapes. -/
theorem serves_of_chooseKernel {kernel : Kernel}
    (h : (chooseKernel compiler inputs output relu).result = .ok kernel) :
    Serves inputs output relu kernel := by
  cases picked_of_chooseKernel h with
  | generated handle hcan hplan hfew =>
      obtain ⟨block, hsettled⟩ := exists_settled_of_plan hplan
      have hblock : handle.routine.spec.block = block := by
        rw [hsettled.spec_eq]
        rfl
      rw [hblock] at hfew ⊢
      exact ⟨_, block, hsettled, hfew, rfl⟩
  | scalar hnone => trivial

/-- A concatenation is prepared with the kernel that is picked for shapes without a defect. -/
theorem kernel_of_prepare {concat : Concat}
    (h : (prepare compiler inputs output relu).result = .ok concat) :
    Shape.defect inputs output = none ∧
      (chooseKernel compiler inputs output relu).result = .ok concat.kernel ∧
      concat.inputs = inputs ∧ concat.output = output ∧ concat.relu = relu := by
  rw [prepare] at h
  cases hdefect : Shape.defect inputs output with
  | some defect =>
      rw [hdefect] at h
      cases h
  | none =>
      simp only [hdefect, Response.andThen] at h
      cases hkernel : (chooseKernel compiler inputs output relu).result with
      | error failure =>
          simp only [hkernel] at h
          cases h
      | ok kernel =>
          simp only [hkernel] at h
          cases h
          exact ⟨rfl, rfl, rfl, rfl, rfl⟩

/-- Every concatenation that was prepared is for the given shapes and valid. -/
theorem valid_of_prepare {concat : Concat}
    (h : (prepare compiler inputs output relu).result = .ok concat) :
    concat.Valid ∧ concat.inputs = inputs ∧ concat.output = output ∧ concat.relu = relu := by
  obtain ⟨hdefect, hkernel, rfl, rfl, rfl⟩ := kernel_of_prepare h
  exact ⟨⟨Shape.defect_eq_none_iff.1 hdefect, serves_of_chooseKernel hkernel⟩, rfl, rfl, rfl⟩

/-- Where the compiler can run its code, shapes that fit and whose block counts fit a plan are
prepared with a generated routine. -/
theorem exists_prepare_of_plan {spec : Spec} (hdefect : Shape.defect inputs output = none)
    (hcan : compiler.canRun = true)
    (hplan : ChannelConcat.plan compiler.maxBits inputs output relu = .ok spec)
    (hfew : ∀ input ∈ inputs, input.channels / spec.block < 2 ^ 31) :
    ∃ concat handle, (prepare compiler inputs output relu).result = .ok concat ∧
      concat.kernel = .generated handle
        (inputs.map fun input => BitVec.ofNat 32 (input.channels / spec.block)) := by
  obtain ⟨handle, -, hkernel⟩ := result_chooseKernel_of_plan hcan hplan
  have hnone : inputs.find? (exceedsCounter spec) = none := by
    refine List.find?_eq_none.2 ?_
    intro input hinput
    rw [exceedsCounter, decide_eq_true_eq]
    exact Nat.not_le.2 (hfew input hinput)
  rw [hnone] at hkernel
  refine ⟨⟨inputs, output, relu,
    (chooseKernel compiler inputs output relu).compiler.options.parallelFrom, _⟩, handle, ?_, rfl⟩
  simp only [prepare, hdefect, Response.andThen, hkernel]

end Concat

end ChannelConcat
