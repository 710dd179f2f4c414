import ChannelConcat.Program
import ChannelConcat.Proofs.X86.Reach

/-!
# The layout of copy routines

A copy routine is short enough for all of its branches, so every routine can be assembled. The work
on the inputs is split here at its three labels. Main statements: `exists_assemble_items`,
`items_eq_at`, `generate_eq_ok_iff`.
-/

namespace ChannelConcat

open X86

namespace Program

/-! ## Sizes -/

/-- An addition takes at most seven bytes. -/
theorem length_encode_add_le (pointer : Pointer) (amount : BitVec 32) :
    (Instr.add pointer amount).encode.length ≤ 7 := by
  cases pointer <;> simp only [Instr.encode] <;> split <;>
    simp [Pointer.addOpening, dword]

/-- A comparison takes at most seven bytes. -/
theorem length_encode_cmp_le (counter : Counter) (bound : BitVec 32) :
    (Instr.cmp counter bound).encode.length ≤ 7 := by
  cases counter with
  | eax => simp [Instr.encode, dword]
  | r9d =>
      simp only [Instr.encode]
      split <;> simp [compareR9Opening, dword]

/-- A vector instruction takes at most six bytes. -/
theorem length_vector_le (width : VectorWidth) (clamp : Clamp) :
    (loadBytes width).length ≤ 6 ∧ (clampBytes width clamp).length ≤ 6 ∧
      (storeBytes width).length ≤ 6 := by
  cases width <;> cases clamp <;> decide

/-- The work on one block takes at most three vector instructions. -/
theorem codeSize_block_le (selection : Selection) : codeSize (block selection) ≤ 18 := by
  obtain ⟨width, clamp⟩ := selection
  cases clamp with
  | none =>
      obtain ⟨hload, -, hstore⟩ := length_vector_le width .maxI8
      simp only [block, Option.toList_none, List.map_nil, List.nil_append, List.cons_append,
        codeSize_cons, codeSize_nil, Item.size, Instr.encode]
      omega
  | some clamp =>
      obtain ⟨hload, hclamp, hstore⟩ := length_vector_le width clamp
      simp only [block, Option.toList_some, List.map_cons, List.map_nil, List.nil_append,
        List.cons_append, codeSize_cons, codeSize_nil, Item.size, Instr.encode]
      omega

/-- A routine fits into 127 bytes. -/
theorem codeSize_items_le (selection : Selection) (bounds : LoopBounds) :
    codeSize (items selection bounds) ≤ 127 := by
  have hentry : codeSize entry = 19 := by decide
  have hexit : codeSize exit = 5 := by decide
  have hblock := codeSize_block_le selection
  have hrcx := length_encode_add_le .rcx bounds.stride
  have hr8 := length_encode_add_le .r8 bounds.stride
  have hrsi := length_encode_add_le .rsi 8
  have hrdx := length_encode_add_le .rdx 4
  have heax := length_encode_cmp_le .eax 0
  have hr9 := length_encode_cmp_le .r9d bounds.inputs
  have hfixed : Instr.clearR9.encode.length = 3 ∧ Instr.loadEax.encode.length = 2 ∧
      Instr.loadRcx.encode.length = 3 ∧ Instr.decEax.encode.length = 2 ∧
      Instr.incR9.encode.length = 3 := by decide
  simp only [items, codeSize_append, hentry, hexit]
  split
  · simp only [inputs, input, codeSize_append, codeSize_cons, codeSize_nil, Item.size]
    omega
  · simp

/-- A routine is shorter than all addresses. -/
theorem codeSize_items_lt (selection : Selection) (bounds : LoopBounds) :
    codeSize (items selection bounds) < 2 ^ 64 :=
  Nat.lt_of_le_of_lt (codeSize_items_le selection bounds) (by decide)

/-! ## Labels -/

/-- The instructions of the work on one block. -/
def blockInstrs (selection : Selection) : List Instr :=
  .loadV1 selection.width :: selection.clamp.toList.map (.clampV1 selection.width) ++
    [.storeV1 selection.width]

/-- The work on one block has neither labels nor branches. -/
theorem block_eq_map (selection : Selection) :
    block selection = (blockInstrs selection).map .plain := by
  simp [block, blockInstrs]

/-- The instructions that prepare the work on one input. -/
def inputInstrs : List Instr :=
  [.loadEax, .loadRcx, .cmp .eax 0]

/-- The instructions of one turn of the loop over blocks. -/
def turnInstrs (selection : Selection) (bounds : LoopBounds) : List Instr :=
  blockInstrs selection ++ [.add .rcx bounds.stride, .add .r8 bounds.stride, .decEax]

/-- The instructions that go on to the next input. -/
def advanceInstrs (bounds : LoopBounds) : List Instr :=
  [.add .rsi 8, .add .rdx 4, .incR9, .cmp .r9d bounds.inputs]

/-- The routine from the end of the work on an input on. -/
def afterInput (bounds : LoopBounds) : List Item :=
  (advanceInstrs bounds).map .plain ++ .branch .less .nextInput :: exit

/-- The routine from the work on a block on. -/
def fromBlock (selection : Selection) (bounds : LoopBounds) : List Item :=
  (turnInstrs selection bounds).map .plain ++
    .branch .greater .nextBlock :: .mark .inputDone :: afterInput bounds

/-- The routine from the work on an input on. -/
def fromInput (selection : Selection) (bounds : LoopBounds) : List Item :=
  inputInstrs.map .plain ++
    .branch .lessOrEqual .inputDone :: .mark .nextBlock :: fromBlock selection bounds

/-- A routine with work on inputs: the entry, and the work from the first input on. -/
theorem items_of_pos {selection : Selection} {bounds : LoopBounds}
    (h : 0 < bounds.inputs.toInt) :
    items selection bounds =
      entry ++ .plain .clearR9 :: .mark .nextInput :: fromInput selection bounds := by
  simp [items, if_pos h, inputs, input, fromInput, fromBlock, afterInput, inputInstrs, turnInstrs,
    advanceInstrs, block_eq_map]

/-- A routine without work on inputs: the entry and the exit. -/
theorem items_of_not_pos {selection : Selection} {bounds : LoopBounds}
    (h : ¬ 0 < bounds.inputs.toInt) : items selection bounds = entry ++ exit := by
  simp [items, if_neg h]

/-- The items in front of a label of a routine with work on inputs. -/
def frontOf (selection : Selection) (bounds : LoopBounds) : Label → List Item
  | .nextInput => entry ++ [.plain .clearR9]
  | .nextBlock =>
      entry ++ .plain .clearR9 :: .mark .nextInput ::
        (inputInstrs.map .plain ++ [.branch .lessOrEqual .inputDone])
  | .inputDone =>
      entry ++ .plain .clearR9 :: .mark .nextInput ::
        (inputInstrs.map .plain ++ .branch .lessOrEqual .inputDone :: .mark .nextBlock ::
          ((turnInstrs selection bounds).map .plain ++ [.branch .greater .nextBlock]))

/-- The items behind a label of a routine with work on inputs. -/
def behind (selection : Selection) (bounds : LoopBounds) : Label → List Item
  | .nextInput => fromInput selection bounds
  | .nextBlock => fromBlock selection bounds
  | .inputDone => afterInput bounds

/-- A routine with work on inputs has each of the labels. -/
theorem items_eq_at {selection : Selection} {bounds : LoopBounds}
    (h : 0 < bounds.inputs.toInt) (label : Label) :
    items selection bounds =
      frontOf selection bounds label ++ .mark label :: behind selection bounds label := by
  rw [items_of_pos h]
  cases label <;> simp [frontOf, behind, fromInput, fromBlock]

/-- Each label has one place only. -/
theorem mark_notMem_frontOf (selection : Selection) (bounds : LoopBounds) (label : Label) :
    .mark label ∉ frontOf selection bounds label := by
  cases label <;> simp [frontOf, entry]

/-- A branch to a label leads to what is behind it. -/
theorem afterLabel_items {selection : Selection} {bounds : LoopBounds}
    (h : 0 < bounds.inputs.toInt) (label : Label) :
    afterLabel label (items selection bounds) = behind selection bounds label := by
  rw [items_eq_at h label, afterLabel_append (mark_notMem_frontOf selection bounds label)]

/-- Every routine can be assembled. -/
theorem exists_assemble_items (selection : Selection) (bounds : LoopBounds) :
    ∃ instrs, assemble (items selection bounds) = some instrs := by
  refine exists_assemble (fun condition label hbranch => ?_) (codeSize_items_le selection bounds)
  by_cases h : 0 < bounds.inputs.toInt
  · rw [items_eq_at h label]
    exact List.mem_append_right _ List.mem_cons_self
  · rw [items_of_not_pos h] at hbranch
    simp [entry, exit] at hbranch

end Program

/-- Code is generated exactly where the instructions can be selected, the level has them, and the
stride can be worked out; it is then the assembled routine. -/
theorem generate_eq_ok_iff {isa : Isa} {spec : Spec} {code : List Byte} :
    generate isa spec = .ok code ↔
      ∃ selection bounds instrs, select spec.bits spec.elem spec.relu = .ok selection ∧
        isa.hasVectors = true ∧ selection.width.isa ≤ isa ∧ spec.loopBounds = .ok bounds ∧
        assemble (Program.items selection bounds) = some instrs ∧ encode instrs = code := by
  unfold generate Spec.codeFor
  cases hvectors : isa.hasVectors with
  | false => simp [refuse]
  | true =>
      cases hselect : select spec.bits spec.elem spec.relu with
      | error fault => simp [breach, bind, Except.bind]
      | ok selection =>
          by_cases hlevel : selection.width.isa ≤ isa
          · cases hbounds : spec.loopBounds with
            | error fault => simp [breach, bind, Except.bind, hlevel]
            | ok bounds =>
                obtain ⟨instrs, hinstrs⟩ := Program.exists_assemble_items selection bounds
                simp [bind, Except.bind, pure, Except.pure, hlevel, hinstrs]
          · simp [bind, Except.bind, hlevel, refuse]

/-- Code is generated wherever the instructions can be selected, the level has them, and the stride
can be worked out. -/
theorem exists_generate {isa : Isa} {spec : Spec} (selection : Selection) (bounds : LoopBounds)
    (hselect : select spec.bits spec.elem spec.relu = .ok selection)
    (hvectors : isa.hasVectors = true) (hlevel : selection.width.isa ≤ isa)
    (hbounds : spec.loopBounds = .ok bounds) : ∃ code, generate isa spec = .ok code := by
  obtain ⟨instrs, hassemble⟩ := Program.exists_assemble_items selection bounds
  exact ⟨encode instrs, generate_eq_ok_iff.2
    ⟨selection, bounds, instrs, hselect, hvectors, hlevel, hbounds, hassemble, rfl⟩⟩

end ChannelConcat
