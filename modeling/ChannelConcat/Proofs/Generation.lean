import ChannelConcat.Proofs.Preparation

/-!
# Generation

Code generation fails for five causes and for no other: there is no generator for the level, no
register has the vector width, the element type has no clamp, the level has no vectors of the width,
or the stride is no size. None of them applies to a plan of the compiler that generates the code.
Main definitions: `Spec.NoCode`, `Compiler.Compilable`. Main statements: `generate_eq_error_iff`,
`Compiler.compilable_of_plan`.
-/

namespace ChannelConcat

/-- A width that no register has is a fault of its own, and the only one. -/
theorem VectorWidth.ofBits_eq_error_iff {bits : Nat} {fault : Fault} :
    VectorWidth.ofBits bits = .error fault ↔
      bits ∉ Plan.registerWidths ∧ fault = .vectorWidth bits := by
  simp only [ofBits, Plan.registerWidths, List.mem_cons, List.not_mem_nil, or_false, not_or]
  split
  · simp_all
  · split
    · simp_all
    · split <;> simp_all [eq_comm]

/-- Exactly the element types that can be moved have a clamp. -/
theorem Clamp.ofElem_eq_error_iff {elem : ElemType} {fault : Fault} :
    Clamp.ofElem elem = .error fault ↔ elem.movable = false ∧ fault = .clamp elem := by
  cases elem <;> simp [Clamp.ofElem, ElemType.movable, ElemType.bytes, eq_comm]

/-- The selection of instructions fails for a width that no register has, or else for an element
type without a clamp where values are clamped. -/
theorem select_eq_error_iff {bits : Nat} {elem : ElemType} {relu : Bool} {fault : Fault} :
    select bits elem relu = .error fault ↔
      bits ∉ Plan.registerWidths ∧ fault = .vectorWidth bits ∨
      bits ∈ Plan.registerWidths ∧ relu = true ∧ elem.movable = false ∧ fault = .clamp elem := by
  rw [select]
  cases hwidth : VectorWidth.ofBits bits with
  | error found =>
      obtain ⟨hbits, rfl⟩ := VectorWidth.ofBits_eq_error_iff.1 hwidth
      simp only [bind, Except.bind, hbits, Except.error.injEq, not_false_eq_true, true_and,
        false_and, or_false, eq_comm]
  | ok width =>
      have hbits : bits ∈ Plan.registerWidths := by
        by_contra hbits
        cases hwidth.symm.trans (VectorWidth.ofBits_eq_error_iff.2 ⟨hbits, rfl⟩)
      cases relu with
      | false => simp [bind, Except.bind, pure, Except.pure, hbits]
      | true =>
          simp only [hbits, bind, Except.bind, pure, Except.pure, not_true_eq_false, true_and,
            false_and, false_or, if_true, ← Clamp.ofElem_eq_error_iff]
          cases Clamp.ofElem elem <;> simp

/-- Where instructions are selected, a register has the width, and values are clamped only of a type
that can be moved. -/
theorem of_select_eq_ok {bits : Nat} {elem : ElemType} {relu : Bool} {selection : Selection}
    (h : select bits elem relu = .ok selection) :
    bits ∈ Plan.registerWidths ∧ (relu = true → elem.movable = true) := by
  have hbits : bits ∈ Plan.registerWidths := by
    by_contra hbits
    cases h.symm.trans (select_eq_error_iff.2 (.inl ⟨hbits, rfl⟩))
  refine ⟨hbits, ?_⟩
  intro hrelu
  by_contra helem
  rw [Bool.not_eq_true] at helem
  cases h.symm.trans (select_eq_error_iff.2 (.inr ⟨hbits, hrelu, helem, rfl⟩))

/-- The vectors that a level has instructions on are not wider than its widest. -/
theorem VectorWidth.bits_le {width : VectorWidth} {isa : Isa} (h : width.isa ≤ isa) :
    width.bits ≤ isa.vectorBits := by
  revert h
  cases width <;> cases isa <;> decide

/-- A level with vectors lacks the instructions on the widest vectors only, and only if it is not
the highest. -/
theorem VectorWidth.of_not_isa_le {width : VectorWidth} {isa : Isa} (hisa : isa ≠ .scalar)
    (h : ¬ width.isa ≤ isa) : width = .zmm ∧ isa = .avx2 := by
  revert hisa h
  cases width <;> cases isa <;> decide

/-- The bounds of the loops cannot be worked out exactly where there is work on inputs and the
stride is no size. -/
theorem Spec.loopBounds_eq_error_iff {spec : Spec} {fault : Fault} :
    spec.loopBounds = .error fault ↔
      0 < (BitVec.ofNat 32 spec.inputs).toInt ∧ Size.limit ≤ spec.block * spec.elemBytes ∧
        fault = .product := by
  simp only [Spec.loopBounds]
  split
  · rename_i hwork
    rw [and_iff_right hwork, ← Size.mul_eq_error_iff, Spec.blockBytes]
    cases Size.mul spec.block spec.elemBytes <;> simp [Except.map]
  · rename_i hidle
    simp [hidle]

/-- The causes for which no code can be generated, each in case no cause before it applies. -/
inductive Spec.NoCode (isa : Isa) (spec : Spec) : Failure → Prop
  /-- There is no generator for a level without vectors. -/
  | generator (hisa : isa = .scalar) :
      NoCode isa spec (.refusal (.unsupported (.generator isa)))
  /-- No register has the width. -/
  | vectorWidth (hisa : isa ≠ .scalar) (hbits : spec.bits ∉ Plan.registerWidths) :
      NoCode isa spec (.fault (.vectorWidth spec.bits))
  /-- The elements are to be clamped, and their type has no clamp. -/
  | clamp (hisa : isa ≠ .scalar) (hbits : spec.bits ∈ Plan.registerWidths)
      (hrelu : spec.relu = true) (helem : spec.elem.movable = false) :
      NoCode isa spec (.fault (.clamp spec.elem))
  /-- The vectors are wider than those of the level. -/
  | level (hisa : isa = .avx2) (hbits : spec.bits = 512)
      (helem : spec.relu = true → spec.elem.movable = true) :
      NoCode isa spec (.refusal (.unsupported (.level spec.bits .avx512 isa)))
  /-- There is work on inputs, and the stride is no size. -/
  | stride (hisa : isa ≠ .scalar) (hbits : spec.bits ∈ Plan.registerWidths)
      (hwidth : spec.bits ≤ isa.vectorBits) (helem : spec.relu = true → spec.elem.movable = true)
      (hwork : 0 < (BitVec.ofNat 32 spec.inputs).toInt)
      (hlimit : Size.limit ≤ spec.block * spec.elemBytes) :
      NoCode isa spec (.fault .product)

namespace Spec.NoCode

variable {isa : Isa} {spec : Spec} {failure : Failure}

/-- At most one cause applies with no cause before it. -/
theorem unique {other : Failure} (h : spec.NoCode isa failure) (hother : spec.NoCode isa other) :
    failure = other := by
  cases h <;> cases hother <;> simp_all [Plan.registerWidths, Isa.vectorBits]

/-- No code is generated where a cause applies. -/
theorem generate_ne_ok (h : spec.NoCode isa failure) (code : List Byte) :
    generate isa spec ≠ .ok code := by
  intro hcode
  obtain ⟨selection, bounds, -, hselect, hvectors, hlevel, hbounds, -, -⟩ :=
    generate_eq_ok_iff.1 hcode
  cases h with
  | generator hisa =>
      rw [hisa] at hvectors
      cases hvectors
  | vectorWidth hisa hbits =>
      cases hselect.symm.trans (select_eq_error_iff.2 (.inl ⟨hbits, rfl⟩))
  | clamp hisa hbits hrelu helem =>
      cases hselect.symm.trans (select_eq_error_iff.2 (.inr ⟨hbits, hrelu, helem, rfl⟩))
  | level hisa hbits helem =>
      obtain ⟨hwidth, -⟩ := select_eq_ok_iff.1 hselect
      rw [hisa] at hlevel
      rw [hbits] at hwidth
      revert hwidth hlevel
      cases selection.width <;> decide
  | stride hisa hbits hwidth helem hwork hlimit =>
      cases hbounds.symm.trans (Spec.loopBounds_eq_error_iff.2 ⟨hwork, hlimit, rfl⟩)

/-- Where code generation fails, one of the causes applies. -/
theorem of_generate (h : generate isa spec = .error failure) : spec.NoCode isa failure := by
  unfold generate Spec.codeFor at h
  by_cases hvectors : isa.hasVectors = true
  · have hisa : isa ≠ .scalar := of_decide_eq_true hvectors
    rw [if_pos hvectors] at h
    cases hselect : select spec.bits spec.elem spec.relu with
    | error fault =>
        rw [hselect] at h
        cases h
        rcases select_eq_error_iff.1 hselect with ⟨hbits, rfl⟩ | ⟨hbits, hrelu, helem, rfl⟩
        · exact .vectorWidth hisa hbits
        · exact .clamp hisa hbits hrelu helem
    | ok selection =>
        obtain ⟨hregister, helem⟩ := of_select_eq_ok hselect
        obtain ⟨hbits, -⟩ := select_eq_ok_iff.1 hselect
        simp only [hselect, orFault_ok, bind, Except.bind] at h
        by_cases hlevel : selection.width.isa ≤ isa
        · rw [if_pos hlevel] at h
          cases hbounds : spec.loopBounds with
          | error fault =>
              rw [hbounds] at h
              cases h
              obtain ⟨hwork, hlimit, rfl⟩ := Spec.loopBounds_eq_error_iff.1 hbounds
              exact .stride hisa hregister (hbits ▸ VectorWidth.bits_le hlevel) helem hwork hlimit
          | ok bounds =>
              -- Every routine can be assembled.
              obtain ⟨instrs, hassemble⟩ := Program.exists_assemble_items selection bounds
              simp only [hbounds, orFault_ok, hassemble] at h
              cases h
        · rw [if_neg hlevel] at h
          obtain ⟨hzmm, rfl⟩ := VectorWidth.of_not_isa_le hisa hlevel
          rw [hzmm] at h hbits
          cases h
          exact .level rfl hbits helem
  · rw [if_neg hvectors] at h
    cases h
    exact .generator (by simpa [Isa.hasVectors] using hvectors)

end Spec.NoCode

/-- Code generation fails exactly for the first of these causes that applies. -/
theorem generate_eq_error_iff {isa : Isa} {spec : Spec} {failure : Failure} :
    generate isa spec = .error failure ↔ spec.NoCode isa failure := by
  refine ⟨.of_generate, ?_⟩
  intro h
  cases hcode : generate isa spec with
  | ok code => exact absurd hcode (h.generate_ne_ok code)
  | error other => rw [h.unique (.of_generate hcode)]

/-! ## Plans -/

namespace Plan.Settled

variable {maxBits block : Nat} {inputs : List Tensor} {output : Tensor} {relu : Bool}
  {planned : Spec}

/-- The stride of a plan is the bytes of its vectors. -/
theorem stride_eq (h : Settled maxBits inputs output relu planned block) :
    block * output.elem.bytes = planned.bits / 8 := by
  rw [h.spec_eq, Nat.mul_comm]
  show output.elem.bytes * block = 8 * output.elem.bytes * block / 8
  rw [Nat.mul_assoc, Nat.mul_div_cancel_left _ (by decide)]

/-- The number of inputs of a plan is its own value as a signed word. -/
theorem toInt_inputs (h : Settled maxBits inputs output relu planned block) :
    (BitVec.ofNat 32 planned.inputs).toInt = planned.inputs := by
  rw [h.spec_eq]
  exact toInt_ofNat_of_lt (Nat.lt_of_le_of_lt h.inputs_le (by decide))

/-- The stride of a plan is its own value as a signed word. -/
theorem toInt_stride (h : Settled maxBits inputs output relu planned block) :
    (BitVec.ofNat 32 (planned.bits / 8)).toInt = (planned.bits / 8 : Nat) := by
  have hstride := h.stride_lt
  rw [h.stride_eq] at hstride
  exact toInt_ofNat_of_lt (by omega)

/-- The bounds of the loops of a plan: the number of inputs, and the bytes of a vector unless there
are no inputs. -/
theorem loopBounds_eq (h : Settled maxBits inputs output relu planned block) :
    planned.loopBounds = .ok ⟨BitVec.ofNat 32 planned.inputs,
      if 0 < planned.inputs then BitVec.ofNat 32 (planned.bits / 8) else 0⟩ := by
  simp only [Spec.loopBounds, h.toInt_inputs, h.blockBytes_eq, h.stride_eq, Int.natCast_pos,
    Except.map]
  split <;> rfl

end Plan.Settled

namespace Compiler

/-- A specification that a compiler makes a routine of, with every step on the way in its range. -/
structure Compilable (compiler : Compiler) (spec : Spec) : Prop where
  /-- The level of the compiler has vectors. -/
  isa_ne_scalar : compiler.isa ≠ .scalar
  /-- The compiler gives a routine of the specification. -/
  routine : ∃ handle, (compiler.compileSpec spec).result = .ok handle ∧
    handle.routine.spec = spec
  /-- Instructions of the specified width are selected, and the level has them. -/
  selection : ∃ selection, select spec.bits spec.elem spec.relu = .ok selection ∧
    selection.width.bits = spec.bits ∧ selection.width.isa ≤ compiler.isa
  /-- The stride is a size, the bytes of a vector. -/
  blockBytes : spec.blockBytes = .ok (spec.bits / 8)
  /-- The loops are bounded by the number of inputs and, if there are any, by the stride. -/
  loopBounds : spec.loopBounds = .ok ⟨BitVec.ofNat 32 spec.inputs,
    if 0 < spec.inputs then BitVec.ofNat 32 (spec.bits / 8) else 0⟩
  /-- The number of inputs keeps its value as a signed word. -/
  toInt_inputs : (BitVec.ofNat 32 spec.inputs).toInt = spec.inputs
  /-- The stride keeps its value as a signed word. -/
  toInt_stride : (BitVec.ofNat 32 (spec.bits / 8)).toInt = (spec.bits / 8 : Nat)
  /-- There is code, and it is not empty. -/
  code : ∃ code, generate compiler.isa spec = .ok code ∧ code ≠ []

/-- Whatever a compiler plans it compiles, if it may generate code at all. -/
theorem compilable_of_plan {compiler : Compiler} {inputs : List Tensor} {output : Tensor}
    {relu : Bool} {spec : Spec} (hgenerate : compiler.options.generate = true)
    (hplan : (compiler.plan inputs output relu).result = .ok spec) :
    compiler.Compilable spec ∧
      (compiler.compile inputs output relu).result = (compiler.compileSpec spec).result := by
  have hwithin := (compiler.result_plan inputs output relu).symm.trans hplan
  have hmax : compiler.maxBits ≤ compiler.isa.vectorBits := Nat.min_le_left ..
  obtain ⟨block, hsettled⟩ := exists_settled_of_plan hwithin
  obtain ⟨selection, hselect, -, hbits⟩ := hsettled.exists_select
  obtain ⟨code, hcode⟩ := exists_generate_of_plan hwithin hmax
  obtain ⟨handle, hhandle⟩ := exists_compileSpec hgenerate hcode
  refine ⟨?_, result_compile_of_plan hwithin⟩
  constructor
  case isa_ne_scalar => exact of_decide_eq_true (hsettled.hasVectors hmax)
  case routine => exact ⟨handle, hhandle, spec_of_compileSpec hhandle⟩
  case selection =>
    exact ⟨selection, hselect, (select_eq_ok_iff.1 hselect).1.symm,
      VectorWidth.isa_le (Nat.le_trans hbits hmax)⟩
  case blockBytes => rw [hsettled.blockBytes_eq, hsettled.stride_eq]
  case loopBounds => exact hsettled.loopBounds_eq
  case toInt_inputs => exact hsettled.toInt_inputs
  case toInt_stride => exact hsettled.toInt_stride
  case code => exact ⟨code, hcode, ne_nil_of_generate hcode⟩

/-- A compiler whose options allow 300 bits plans bytes of 32 and of 96 channels with vectors of 256
bits, and compiles this plan. -/
theorem compilable_of_plan_bytes :
    let compiler : Compiler := { host := .avx2, isa := .avx512, options := { maxBits := 300 } }
    let inputs : List Tensor :=
      [.interleaved .u8 ⟨1, 2, 2, 32⟩, .interleaved .u8 ⟨1, 2, 2, 96⟩]
    let output : Tensor := .interleaved .u8 ⟨1, 2, 2, 128⟩
    let spec : Spec := ⟨2, true, .u8, 1, 32, 256, ⟨1, 2, 2, 128⟩⟩
    compiler.options.generate = true ∧ (compiler.plan inputs output true).result = .ok spec ∧
      compiler.Compilable spec ∧
      (compiler.compile inputs output true).result = (compiler.compileSpec spec).result := by
  intro compiler inputs output spec
  have hplan : (compiler.plan inputs output true).result = .ok spec := rfl
  exact ⟨rfl, hplan, compilable_of_plan rfl hplan⟩

end Compiler

end ChannelConcat
