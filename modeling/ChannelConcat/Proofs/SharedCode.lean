import ChannelConcat.Proofs.Generation
import ChannelConcat.Proofs.Program.Instructions
import ChannelConcat.Proofs.X86.Prefixes

/-!
# Specifications with the same code

The code of a routine depends on the number of its inputs and its stride as signed words, on the
width of its vectors and on its clamp, and on nothing else; and it tells all of these apart, as long
as there is work on inputs. Main definition: `Spec.SameWork`. Main statement:
`code_eq_iff_sameWork`.
-/

namespace ChannelConcat

open X86

/-! ## Code that tells its instructions -/

namespace Program

/-- The code of a routine tells its instructions. -/
theorem plainInstrs_eq_of_encode_eq {selection other : Selection} {bounds others : LoopBounds}
    {first second : List Instr} (hfirst : assemble (items selection bounds) = some first)
    (hsecond : assemble (items other others) = some second) (h : encode first = encode second) :
    plainInstrs selection bounds = plainInstrs other others := by
  have hplain := filter_resolveFrom? hfirst
  have hotherPlain := filter_resolveFrom? hsecond
  rw [encode_injective h, hotherPlain] at hplain
  simp only [filterMap_items] at hplain
  rw [List.filter_eq_self.2, List.filter_eq_self.2] at hplain
  · exact hplain.symm
  · intro instr hinstr
    rw [branches_of_mem_plainInstrs hinstr]
    rfl
  · intro instr hinstr
    rw [branches_of_mem_plainInstrs hinstr]
    rfl

/-- The instructions of the work on inputs tell the selection and the bounds of the loops. -/
theorem eq_of_inputsInstrs_eq {selection other : Selection} {bounds others : LoopBounds}
    {rest more : List Instr}
    (h : inputsInstrs selection bounds ++ rest = inputsInstrs other others ++ more) :
    selection = other ∧ bounds = others := by
  obtain ⟨width, clamp⟩ := selection
  obtain ⟨otherWidth, otherClamp⟩ := other
  obtain ⟨inputs, stride⟩ := bounds
  obtain ⟨otherInputs, otherStride⟩ := others
  cases clamp <;> cases otherClamp <;>
    simp_all [inputsInstrs, inputInstrs, turnInstrs, blockInstrs, advanceInstrs]

/-- Routines with the same instructions do no work on inputs, or the same. -/
theorem eq_of_plainInstrs_eq {selection other : Selection} {bounds others : LoopBounds}
    (h : plainInstrs selection bounds = plainInstrs other others) :
    bounds.inputs.toInt ≤ 0 ∧ others.inputs.toInt ≤ 0 ∨
      0 < bounds.inputs.toInt ∧ selection = other ∧ bounds = others := by
  simp only [plainInstrs, List.append_assoc, List.append_cancel_left_eq] at h
  split at h
  · rename_i hpos
    split at h
    · exact .inr ⟨hpos, eq_of_inputsInstrs_eq h⟩
    · -- The work on inputs begins otherwise than the exit.
      cases h
  · rename_i hnot
    split at h
    · cases h
    · rename_i hnotOther
      exact .inl ⟨Int.not_lt.1 hnot, Int.not_lt.1 hnotOther⟩

end Program

/-! ## Work that specifications ask for -/

namespace Spec

/-- The clamp that a specification asks for, if there is one. -/
def clamp? (spec : Spec) : Option Clamp :=
  if spec.relu then (Clamp.ofElem spec.elem).toOption else none

/-- Two specifications both ask for no work on inputs, or they ask for the same work: on as many
inputs, with the same stride, with vectors of the same width and with the same clamp. -/
inductive SameWork (first second : Spec) : Prop
  | none (hfirst : (BitVec.ofNat 32 first.inputs).toInt ≤ 0)
      (hsecond : (BitVec.ofNat 32 second.inputs).toInt ≤ 0)
  | some (hpos : 0 < (BitVec.ofNat 32 first.inputs).toInt)
      (hinputs : BitVec.ofNat 32 first.inputs = BitVec.ofNat 32 second.inputs)
      (hstride : BitVec.ofNat 32 (first.block * first.elemBytes) =
        BitVec.ofNat 32 (second.block * second.elemBytes))
      (hbits : first.bits = second.bits) (hclamp : first.clamp? = second.clamp?)

variable {first second spec : Spec} {selection other : Selection} {bounds : LoopBounds}

/-- The selected clamp is the one that is asked for. -/
theorem clamp?_eq_of_select (h : select spec.bits spec.elem spec.relu = .ok selection) :
    spec.clamp? = selection.clamp := by
  obtain ⟨-, hclamp⟩ := select_eq_ok_iff.1 h
  rw [clamp?]
  cases hrelu : spec.relu with
  | false =>
      rw [hrelu, if_neg Bool.false_ne_true] at hclamp
      rw [if_neg Bool.false_ne_true, hclamp]
  | true =>
      rw [hrelu, if_pos rfl] at hclamp
      obtain ⟨clamp, helem, hclamp⟩ := hclamp
      rw [if_pos rfl, helem, hclamp]
      rfl

/-- A selection is determined by the width and the clamp that are asked for. -/
theorem selection_eq_iff (hfirst : select first.bits first.elem first.relu = .ok selection)
    (hsecond : select second.bits second.elem second.relu = .ok other) :
    selection = other ↔ first.bits = second.bits ∧ first.clamp? = second.clamp? := by
  obtain ⟨hbits, -⟩ := select_eq_ok_iff.1 hfirst
  obtain ⟨hotherBits, -⟩ := select_eq_ok_iff.1 hsecond
  rw [clamp?_eq_of_select hfirst, clamp?_eq_of_select hsecond, hbits, hotherBits]
  obtain ⟨width, clamp⟩ := selection
  obtain ⟨otherWidth, otherClamp⟩ := other
  cases width <;> cases otherWidth <;> simp [VectorWidth.bits, VectorWidth.bytes]

/-- The bounds of the loops of a specification with work on inputs. -/
theorem loopBounds_of_pos (hpos : 0 < (BitVec.ofNat 32 spec.inputs).toInt)
    (h : spec.loopBounds = .ok bounds) :
    bounds = ⟨BitVec.ofNat 32 spec.inputs, BitVec.ofNat 32 (spec.block * spec.elemBytes)⟩ := by
  obtain ⟨hinputs, hstride⟩ := bounds_of_loopBounds h
  obtain ⟨inputs, stride⟩ := bounds
  have hrounds : spec.rounds ≠ 0 := by
    rw [rounds, repeats]
    omega
  rw [LoopBounds.mk.injEq]
  exact ⟨hinputs, hstride hrounds⟩

/-- What the code that a level has for a specification does not depend on. -/
structure CodeKept (isa : Isa) (spec : Spec) (code : List Byte) : Prop where
  /-- The dimensions of the output make no difference. -/
  dims : ∀ dims, generate isa { spec with dims } = .ok code
  /-- Every level that has vectors of the width gives the same code. -/
  level : ∀ other : Isa, spec.bits ≤ other.vectorBits → generate other spec = .ok code
  /-- Without a clamp the element type makes no difference. -/
  elem : spec.relu = false → ∀ elem, generate isa { spec with elem } = .ok code
  /-- Signed and unsigned bytes make no difference. -/
  bytes : spec.elem.bytes = 1 → ∀ elem : ElemType, elem.bytes = 1 →
    generate isa { spec with elem } = .ok code

end Spec

variable {isa otherIsa : Isa} {first second spec : Spec} {code otherCode : List Byte}

/-- Code is generated alike wherever the same instructions are selected, the loops have the same
bounds and the level has vectors of the width. -/
theorem generate_of_select_eq (h : generate isa first = .ok code)
    (hselect : select second.bits second.elem second.relu =
      select first.bits first.elem first.relu)
    (hbounds : second.loopBounds = first.loopBounds) (hlevel : first.bits ≤ otherIsa.vectorBits) :
    generate otherIsa second = .ok code := by
  obtain ⟨selection, bounds, instrs, hselection, -, -, hfound, hassemble, hencode⟩ :=
    generate_eq_ok_iff.1 h
  rw [(select_eq_ok_iff.1 hselection).1] at hlevel
  have hwidth := VectorWidth.isa_le hlevel
  have hvectors : otherIsa.hasVectors = true := by
    revert hwidth
    cases selection.width <;> cases otherIsa <;> decide
  exact generate_eq_ok_iff.2 ⟨selection, bounds, instrs, hselect.trans hselection, hvectors,
    hwidth, hbounds.trans hfound, hassemble, hencode⟩

/-- The vectors of generated code are within those of the level. -/
theorem bits_le_of_generate (h : generate isa spec = .ok code) : spec.bits ≤ isa.vectorBits := by
  obtain ⟨selection, -, -, hselect, -, hlevel, -⟩ := generate_eq_ok_iff.1 h
  rw [(select_eq_ok_iff.1 hselect).1]
  exact VectorWidth.bits_le hlevel

/-- Generated code does not depend on the dimensions, on the level or, unless elements of different
kinds are clamped, on the element type. -/
theorem codeKept_of_generate (h : generate isa spec = .ok code) : spec.CodeKept isa code := by
  have hlevel := bits_le_of_generate h
  constructor
  case dims => exact fun dims => generate_of_select_eq h rfl rfl hlevel
  case level => exact fun other hother => generate_of_select_eq h rfl rfl hother
  case elem =>
    intro hrelu elem
    refine generate_of_select_eq h ?_ rfl hlevel
    simp only [select, hrelu, Bool.false_eq_true, if_false]
  case bytes =>
    intro hbytes elem helem
    refine generate_of_select_eq h ?_ rfl hlevel
    have hclamp : Clamp.ofElem elem = Clamp.ofElem spec.elem := by
      revert hbytes helem
      cases elem <;> cases spec.elem <;> simp [ElemType.bytes, Clamp.ofElem]
    simp only [select, hclamp]

/-- Specifications with the same code ask for the same work. -/
theorem sameWork_of_generate_eq (hfirst : generate isa first = .ok code)
    (hsecond : generate otherIsa second = .ok code) : first.SameWork second := by
  obtain ⟨selection, bounds, instrs, hselect, -, -, hbounds, hassemble, hencode⟩ :=
    generate_eq_ok_iff.1 hfirst
  obtain ⟨other, others, otherInstrs, hother, -, -, hothers, hotherAssemble, hotherEncode⟩ :=
    generate_eq_ok_iff.1 hsecond
  have hinputs := (Spec.bounds_of_loopBounds hbounds).1
  have hotherInputs := (Spec.bounds_of_loopBounds hothers).1
  have hplain := Program.plainInstrs_eq_of_encode_eq hassemble hotherAssemble
    (hencode.trans hotherEncode.symm)
  rcases Program.eq_of_plainInstrs_eq hplain with ⟨hnone, hotherNone⟩ | ⟨hpos, hsame, rfl⟩
  · exact .none (hinputs ▸ hnone) (hotherInputs ▸ hotherNone)
  · obtain ⟨hbits, hclamp⟩ := (Spec.selection_eq_iff hselect hother).1 hsame
    rw [hinputs] at hpos
    have hwords := Spec.loopBounds_of_pos hpos hbounds
    rw [Spec.loopBounds_of_pos (hinputs.symm.trans hotherInputs ▸ hpos) hothers,
      LoopBounds.mk.injEq] at hwords
    exact .some hpos hwords.1.symm hwords.2.symm hbits hclamp

/-- Specifications that ask for the same work have the same code. -/
theorem Spec.SameWork.code_eq (h : first.SameWork second) (hfirst : generate isa first = .ok code)
    (hsecond : generate otherIsa second = .ok otherCode) : code = otherCode := by
  obtain ⟨selection, bounds, instrs, hselect, -, -, hbounds, hassemble, rfl⟩ :=
    generate_eq_ok_iff.1 hfirst
  obtain ⟨other, others, otherInstrs, hother, -, -, hothers, hotherAssemble, rfl⟩ :=
    generate_eq_ok_iff.1 hsecond
  have hitems : Program.items selection bounds = Program.items other others := by
    cases h with
    | none hnone hotherNone =>
        rw [Program.items_of_not_pos, Program.items_of_not_pos]
        · rw [(Spec.bounds_of_loopBounds hothers).1]
          exact Int.not_lt.2 hotherNone
        · rw [(Spec.bounds_of_loopBounds hbounds).1]
          exact Int.not_lt.2 hnone
    | some hpos hinputs hstride hbits hclamp =>
        rw [(Spec.selection_eq_iff hselect hother).2 ⟨hbits, hclamp⟩,
          Spec.loopBounds_of_pos hpos hbounds, Spec.loopBounds_of_pos (hinputs ▸ hpos) hothers,
          hinputs, hstride]
  rw [hitems, hotherAssemble] at hassemble
  rw [Option.some.inj hassemble]

/-- Specifications that ask for the same work move the same blocks. -/
theorem Spec.SameWork.copyInputs_eq (h : first.SameWork second)
    (hfirst : generate isa first = .ok code) (hsecond : generate otherIsa second = .ok otherCode)
    (entries : List TableEntry) (progress : Progress) :
    first.blockMove.copyInputs (entries.take first.rounds) progress =
      second.blockMove.copyInputs (entries.take second.rounds) progress := by
  obtain ⟨selection, bounds, instrs, hselect, -, -, hbounds, -⟩ := generate_eq_ok_iff.1 hfirst
  obtain ⟨other, others, otherInstrs, hother, -, -, hothers, -⟩ := generate_eq_ok_iff.1 hsecond
  cases h with
  | none hnone hotherNone =>
      rw [Spec.rounds, Spec.rounds, repeats, repeats, Int.toNat_of_nonpos hnone,
        Int.toNat_of_nonpos hotherNone]
      rfl
  | some hpos hinputs hstride hbits hclamp =>
      have hrounds : first.rounds = second.rounds := by rw [Spec.rounds, Spec.rounds, hinputs]
      have hwork : first.rounds ≠ 0 := by
        rw [Spec.rounds, repeats]
        omega
      rw [Spec.blockMove_eq hselect hbounds hwork,
        Spec.blockMove_eq hother hothers (hrounds ▸ hwork), hrounds,
        (Spec.selection_eq_iff hselect hother).2 ⟨hbits, hclamp⟩,
        Spec.loopBounds_of_pos hpos hbounds, Spec.loopBounds_of_pos (hinputs ▸ hpos) hothers,
        hstride]

/-- When two specifications have the same code: exactly if both ask for no work on inputs, or both
for the same. So the dimensions, the level and, up to the clamp, the element type leave no trace in
the code, and whatever changes what is copied does. -/
theorem code_eq_iff_sameWork (hfirst : generate isa first = .ok code)
    (hsecond : generate otherIsa second = .ok otherCode) :
    (code = otherCode ↔ first.SameWork second) ∧ first.CodeKept isa code ∧
      (code = otherCode → ∀ (entries : List TableEntry) (progress : Progress),
        first.blockMove.copyInputs (entries.take first.rounds) progress =
          second.blockMove.copyInputs (entries.take second.rounds) progress) := by
  have hsame : code = otherCode ↔ first.SameWork second := by
    constructor
    · rintro rfl
      exact sameWork_of_generate_eq hfirst hsecond
    · exact fun h => h.code_eq hfirst hsecond
  refine ⟨hsame, codeKept_of_generate hfirst, ?_⟩
  intro h entries progress
  exact (hsame.1 h).copyInputs_eq hfirst hsecond entries progress

/-- Numbers for a narrow level and bytes for a wide one, with block sizes and dimensions of their
own and with a number of inputs that is equal as a signed word only, have the same code. -/
theorem code_eq_iff_sameWork_two_inputs :
    let first : Spec := ⟨2, false, .f32, 4, 4, 128, ⟨1, 2, 2, 12⟩⟩
    let second : Spec := ⟨0x100000002, false, .u8, 1, 16, 128, ⟨7, 1, 1, 48⟩⟩
    ∃ code otherCode, generate .avx2 first = .ok code ∧ generate .avx512 second = .ok otherCode ∧
      first.SameWork second ∧ (code = otherCode ↔ first.SameWork second) ∧
      first.CodeKept .avx2 code ∧
      (code = otherCode → ∀ (entries : List TableEntry) (progress : Progress),
        first.blockMove.copyInputs (entries.take first.rounds) progress =
          second.blockMove.copyInputs (entries.take second.rounds) progress) := by
  intro first second
  obtain ⟨code, hcode⟩ : ∃ code, generate .avx2 first = .ok code :=
    exists_generate ⟨.xmm, none⟩ ⟨2, 16⟩ rfl rfl (by decide) rfl
  obtain ⟨otherCode, hother⟩ : ∃ code, generate .avx512 second = .ok code :=
    exists_generate ⟨.xmm, none⟩ ⟨2, 16⟩ rfl rfl (by decide) (by
      simp [second, Spec.loopBounds, Spec.blockBytes, Size.mul, Size.limit, Except.map])
  exact ⟨code, otherCode, hcode, hother, .some (by decide) (by decide) (by decide) rfl rfl,
    code_eq_iff_sameWork hcode hother⟩

end ChannelConcat
