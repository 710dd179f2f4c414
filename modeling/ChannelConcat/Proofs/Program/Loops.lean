import ChannelConcat.Proofs.BlockMove
import ChannelConcat.Proofs.Counters
import ChannelConcat.Proofs.Program.Layout

/-!
# The loops of copy routines

The machine runs the two loops of a copy routine as `BlockMove.copyInputs`. The loop over blocks is
an induction on the blocks left, the loop over inputs an induction on the table entries left; what a
loop leaves in its scratch registers is not fixed. Main statements: `runs_afterInput`,
`runs_exit`.
-/

namespace ChannelConcat

open X86

namespace X86.State

/-- How far a copy has come: the target cursor is kept in `r8`. -/
def progress (state : State) : Progress :=
  ⟨state.registers.r8, state.memory⟩

/-- The state after blocks were copied, with new contents of the registers that the loop over blocks
may change. -/
def copied (state : State) (rax rcx : BitVec 64) (progress : Progress) (flags : Flags)
    (v1 : List Byte) (position : Nat) : State :=
  { state with
    registers := { state.registers with rax := rax, rcx := rcx, r8 := progress.target }
    flags := flags
    v1 := v1
    memory := progress.memory
    position := position }

end X86.State

/-- The registers that a routine hands back as it got them. -/
structure Saved where
  rbx : BitVec 64
  rbp : BitVec 64
  rsp : BitVec 64
  r12 : BitVec 64
  r13 : BitVec 64
  r14 : BitVec 64
  r15 : BitVec 64
  deriving DecidableEq

/-- The saved registers among all registers. -/
def X86.Registers.saved (registers : Registers) : Saved where
  rbx := registers.rbx
  rbp := registers.rbp
  rsp := registers.rsp
  r12 := registers.r12
  r13 := registers.r13
  r14 := registers.r14
  r15 := registers.r15

/-- The low part of an extended register. -/
theorem take_extended {bytes : List Byte} {n : Nat} (h : bytes.length = n) :
    (extended bytes).take n = bytes := by
  rw [extended, List.take_left' h]

namespace Program

variable {selection : Selection} {bounds : LoopBounds} {instrs : List Instr} {state : State}

/-! ## The loop over blocks -/

/-- The work on one block stores what the block at the source cursor becomes. -/
theorem execAll_blockInstrs (selection : Selection) (state : State)
    (hzeros : state.v0 = List.replicate vectorBytes 0) :
    ∃ v1 position, execAll (blockInstrs selection) state =
      { state with
        v1 := v1
        memory := state.memory.store state.registers.r8
          (selection.onBlock (state.memory.load state.registers.rcx selection.width.bytes))
        position := position } := by
  obtain ⟨width, clamp⟩ := selection
  have hload : (state.memory.load state.registers.rcx width.bytes).length = width.bytes :=
    Memory.length_load ..
  cases clamp with
  | none =>
      simp only [execAll, blockInstrs, Instr.exec, Option.toList_none, List.map_nil,
        List.foldl_cons, List.nil_append, List.cons_append, List.foldl_nil, take_extended hload,
        Selection.onBlock]
      exact ⟨_, _, rfl⟩
  | some clamp =>
      have hwidth : width.bytes ≤ vectorBytes := by cases width <;> decide
      have honBlock := Selection.length_onBlock ⟨width, some clamp⟩
        (hload.symm ▸ width.four_dvd_bytes)
      simp only [Selection.onBlock, hload] at honBlock
      simp only [execAll, blockInstrs, Instr.exec, Option.toList_some, List.map_nil,
        List.map_cons, List.foldl_cons, List.nil_append, List.cons_append, List.foldl_nil,
        take_extended hload, Selection.onBlock, hzeros, List.take_replicate,
        Nat.min_eq_left hwidth, hload, take_extended honBlock]
      exact ⟨_, _, rfl⟩

/-- One turn of the loop over blocks moves one block and counts it. -/
theorem execAll_turnInstrs (selection : Selection) (bounds : LoopBounds) (state : State)
    (hzeros : state.v0 = List.replicate vectorBytes 0) :
    ∃ v1 position, execAll (turnInstrs selection bounds) state =
      state.copied ((state.registers.counter .eax - 1).setWidth 64)
        (state.registers.rcx + bounds.stride.signExtend 64)
        ((selection.blockMove bounds.stride).copyBlock state.registers.rcx state.progress)
        (.ofSub (state.registers.counter .eax) 1) v1 position := by
  obtain ⟨v1, position, hblock⟩ := execAll_blockInstrs selection state hzeros
  rw [turnInstrs, execAll_append, hblock]
  exact ⟨_, _, rfl⟩

/-- One turn of the loop over blocks loads and stores one block. -/
theorem accessAll_turnInstrs (selection : Selection) (bounds : LoopBounds) (state : State) :
    accessAll (turnInstrs selection bounds) state =
      (selection.blockMove bounds.stride).blockAccesses (state.registers.counter .r9d).toNat 1
        state.registers.rcx state.registers.r8 := by
  obtain ⟨width, clamp⟩ := selection
  cases clamp <;> rfl

/-- None of the instructions of a turn branches. -/
theorem falls_turnInstrs (selection : Selection) (bounds : LoopBounds) :
    ∀ instr ∈ turnInstrs selection bounds, instr.falls = true := by
  obtain ⟨width, clamp⟩ := selection
  cases clamp <;> simp [turnInstrs, blockInstrs, Instr.falls]

/-- A turn of the loop over blocks goes back to the next block if its counter was above one, and
leaves the loop otherwise. -/
theorem runs_nextBlock (hassemble : assemble (items selection bounds) = some instrs)
    (hinputs : 0 < bounds.inputs.toInt)
    (hfront : InFrontOf (items selection bounds) (fromBlock selection bounds) state)
    (hzeros : state.v0 = List.replicate vectorBytes 0) :
    ∃ v1 position,
      let next := state.copied ((state.registers.counter .eax - 1).setWidth 64)
        (state.registers.rcx + bounds.stride.signExtend 64)
        ((selection.blockMove bounds.stride).copyBlock state.registers.rcx state.progress)
        (.ofSub (state.registers.counter .eax) 1) v1 position
      Runs (encode instrs) state
          ((selection.blockMove bounds.stride).blockAccesses
            (state.registers.counter .r9d).toNat 1 state.registers.rcx state.registers.r8) next ∧
        InFrontOf (items selection bounds)
          (if 1 < (state.registers.counter .eax).toInt then fromBlock selection bounds
            else .mark .inputDone :: afterInput bounds) next := by
  obtain ⟨hturn, hbranch⟩ := runs_execAll _ hassemble hfront (falls_turnInstrs _ _)
  obtain ⟨v1, position, hexec⟩ := execAll_turnInstrs selection bounds state hzeros
  rw [hexec, accessAll_turnInstrs] at hturn
  rw [hexec] at hbranch
  obtain ⟨next, hjump, hnext⟩ :=
    runs_branch hassemble (codeSize_items_lt selection bounds) hbranch
  rw [afterLabel_items hinputs, State.copied, Condition.holds_ofSub] at hnext
  simp only [decide_eq_true_eq] at hnext
  exact ⟨v1, next, hturn.trans hjump, hnext⟩

/-- The loop over blocks moves as many blocks as its counter says. -/
theorem runs_afterInput (hassemble : assemble (items selection bounds) = some instrs)
    (hinputs : 0 < bounds.inputs.toInt) {count : Nat} (hcount : count + 1 < 2 ^ 31)
    (hfront : InFrontOf (items selection bounds) (fromBlock selection bounds) state)
    (heax : state.registers.counter .eax = BitVec.ofNat 32 (count + 1))
    (hzeros : state.v0 = List.replicate vectorBytes 0) :
    ∃ rax rcx flags v1 position,
      let final := state.copied rax rcx
        ((selection.blockMove bounds.stride).copyInput (count + 1) state.registers.rcx
          state.progress) flags v1 position
      Runs (encode instrs) state
          ((selection.blockMove bounds.stride).blockAccesses
            (state.registers.counter .r9d).toNat (count + 1) state.registers.rcx
            state.registers.r8) final ∧
        InFrontOf (items selection bounds) (afterInput bounds) final := by
  -- The counter is tested after the block, so the induction is on the blocks behind the first.
  induction count generalizing state with
  | zero =>
      obtain ⟨v1, position, hturn, hnext⟩ := runs_nextBlock hassemble hinputs hfront hzeros
      have hdone : ¬ 1 < (state.registers.counter .eax).toInt := by
        rw [heax, toInt_ofNat_of_lt hcount]
        omega
      rw [if_neg hdone] at hnext
      exact ⟨_, _, _, v1, position, hturn, hnext.mark⟩
  | succ count ih =>
      obtain ⟨v1, position, hturn, hnext⟩ := runs_nextBlock hassemble hinputs hfront hzeros
      have hmore : 1 < (state.registers.counter .eax).toInt := by
        rw [heax, toInt_ofNat_of_lt hcount]
        omega
      rw [if_pos hmore] at hnext
      have hleft : ((state.registers.counter .eax - 1).setWidth 64).setWidth 32 =
          BitVec.ofNat 32 (count + 1) := by
        rw [heax]
        apply BitVec.eq_of_toNat_eq
        simp only [BitVec.toNat_setWidth, BitVec.toNat_sub, BitVec.toNat_ofNat,
          BitVec.ofNat_eq_ofNat]
        omega
      obtain ⟨rax, rcx, flags, v1, position, hrest, hfinal⟩ :=
        ih (Nat.lt_of_succ_lt hcount) hnext hleft hzeros
      exact ⟨rax, rcx, flags, v1, position, hturn.trans hrest, hfinal⟩

/-! ## The loop over inputs -/

/-- The work on one input moves its blocks, none if its count is not positive. -/
theorem runs_input (hassemble : assemble (items selection bounds) = some instrs)
    (hinputs : 0 < bounds.inputs.toInt) {entry : TableEntry}
    (hfront : InFrontOf (items selection bounds) (fromInput selection bounds) state)
    (hsource : state.memory.loadAddress state.registers.rsi = entry.source)
    (hcount : Word.ofBytes 4 (state.memory.load state.registers.rdx 4) = entry.count)
    (hzeros : state.v0 = List.replicate vectorBytes 0) :
    ∃ rax rcx flags v1 position,
      let final := state.copied rax rcx
        ((selection.blockMove bounds.stride).copyInput (repeats entry.count) entry.source
          state.progress) flags v1 position
      Runs (encode instrs) state
          ((selection.blockMove bounds.stride).blockAccesses
            (state.registers.counter .r9d).toNat (repeats entry.count) entry.source
            state.registers.r8) final ∧
        InFrontOf (items selection bounds) (afterInput bounds) final := by
  obtain ⟨hprepare, hbranch⟩ := runs_execAll _ hassemble hfront (by decide)
  have hexec : ∃ position, execAll inputInstrs state =
      state.copied (entry.count.setWidth 64) entry.source state.progress
        (.ofSub ((entry.count.setWidth 64).setWidth 32) 0) state.v1 position := by
    rw [← hcount, ← hsource]
    exact ⟨_, rfl⟩
  obtain ⟨position, hexec⟩ := hexec
  rw [hexec, setWidth_setWidth_self] at hprepare hbranch
  obtain ⟨next, hjump, hnext⟩ :=
    runs_branch hassemble (codeSize_items_lt selection bounds) hbranch
  have hcondition : Condition.lessOrEqual.holds (.ofSub entry.count 0) =
      decide (entry.count.toInt ≤ 0) := Condition.holds_ofSub ..
  rw [State.copied, hcondition, afterLabel_items hinputs] at hnext
  -- A count that is not positive skips the loop, which would otherwise run once.
  by_cases hnone : entry.count.toInt ≤ 0
  · have hrepeats : repeats entry.count = 0 := Int.toNat_of_nonpos hnone
    rw [if_pos (decide_eq_true hnone)] at hnext
    rw [hrepeats]
    exact ⟨_, _, _, _, _, hprepare.trans hjump, hnext⟩
  · obtain ⟨count, hrepeats⟩ := Nat.exists_eq_add_one_of_ne_zero
      (n := repeats entry.count) (by unfold repeats; omega)
    have hbound : count + 1 < 2 ^ 31 := hrepeats ▸ repeats_lt entry.count
    have heax : (entry.count.setWidth 64).setWidth 32 = BitVec.ofNat 32 (count + 1) := by
      rw [setWidth_setWidth_self, ← hrepeats, ofNat_repeats (by omega)]
    rw [if_neg (by simpa using hnone)] at hnext
    obtain ⟨rax, rcx, flags, v1, position, hrest, hfinal⟩ :=
      runs_afterInput hassemble hinputs hbound hnext.mark heax hzeros
    rw [hrepeats]
    exact ⟨rax, rcx, flags, v1, position, (hprepare.trans hjump).trans hrest, hfinal⟩

/-- Going on to the next input advances both table cursors and compares the number of inputs
done. -/
theorem execAll_advanceInstrs (bounds : LoopBounds) (state : State) :
    ∃ position, execAll (advanceInstrs bounds) state =
      { state with
        registers := { state.registers with
          rsi := state.registers.rsi + 8
          rdx := state.registers.rdx + 4
          r9 := (state.registers.counter .r9d + 1).setWidth 64 }
        flags := .ofSub (state.registers.counter .r9d + 1) bounds.inputs
        position := position } := by
  have hflags : Flags.ofSub (state.registers.counter .r9d + 1) bounds.inputs =
      .ofSub (((state.registers.counter .r9d + 1).setWidth 64).setWidth 32) bounds.inputs := by
    rw [setWidth_setWidth_self]
  rw [hflags]
  exact ⟨_, rfl⟩

/-- One turn of the loop over inputs moves the blocks of one input and goes on to the next one if
the number of inputs is not reached. -/
theorem runs_turn (hassemble : assemble (items selection bounds) = some instrs)
    (hinputs : 0 < bounds.inputs.toInt) {entry : TableEntry}
    (hfront : InFrontOf (items selection bounds) (fromInput selection bounds) state)
    (hsource : state.memory.loadAddress state.registers.rsi = entry.source)
    (hcount : Word.ofBytes 4 (state.memory.load state.registers.rdx 4) = entry.count)
    (hzeros : state.v0 = List.replicate vectorBytes 0) :
    ∃ next, Runs (encode instrs) state
        ((selection.blockMove bounds.stride).blockAccesses (state.registers.counter .r9d).toNat
          (repeats entry.count) entry.source state.registers.r8) next ∧
      InFrontOf (items selection bounds)
        (if (state.registers.counter .r9d + 1).toInt < bounds.inputs.toInt
          then fromInput selection bounds else exit) next ∧
      next.progress = (selection.blockMove bounds.stride).copyInput (repeats entry.count)
        entry.source state.progress ∧
      next.registers.rsi = state.registers.rsi + 8 ∧
      next.registers.rdx = state.registers.rdx + 4 ∧
      next.registers.counter .r9d = state.registers.counter .r9d + 1 ∧
      next.v0 = state.v0 ∧ next.registers.saved = state.registers.saved := by
  obtain ⟨rax, rcx, flags, v1, position, hinput, hafter⟩ :=
    runs_input hassemble hinputs hfront hsource hcount hzeros
  obtain ⟨hadvance, hbranch⟩ :=
    runs_execAll _ hassemble hafter (by simp [advanceInstrs, Instr.falls])
  obtain ⟨behind, hexec⟩ := execAll_advanceInstrs bounds (state.copied rax rcx
    ((selection.blockMove bounds.stride).copyInput (repeats entry.count) entry.source
      state.progress) flags v1 position)
  rw [hexec] at hadvance hbranch
  obtain ⟨next, hjump, hnext⟩ :=
    runs_branch hassemble (codeSize_items_lt selection bounds) hbranch
  rw [afterLabel_items hinputs, Condition.holds_ofSub] at hnext
  simp only [decide_eq_true_eq] at hnext
  exact ⟨_, (hinput.trans_nil hadvance).trans_nil hjump, hnext, rfl, rfl, rfl,
    setWidth_setWidth_self _, rfl, rfl⟩

/-- The loop over inputs moves the blocks of all inputs that are left. -/
theorem runs_exit (hassemble : assemble (items selection bounds) = some instrs)
    (hinputs : 0 < bounds.inputs.toInt) {entry : TableEntry} {entries : List TableEntry}
    (index : Nat) (hleft : index + (entries.length + 1) = repeats bounds.inputs)
    (hfront : InFrontOf (items selection bounds) (fromInput selection bounds) state)
    (htables : Tables state.memory state.registers.rsi state.registers.rdx (entry :: entries))
    (hindex : state.registers.counter .r9d = BitVec.ofNat 32 index)
    (hzeros : state.v0 = List.replicate vectorBytes 0)
    (hsources : (selection.blockMove bounds.stride).Avoids state.registers.r8
      (BlockMove.blockTotal (entry :: entries)) ⟨state.registers.rsi, 8 * (entries.length + 1)⟩)
    (hcounts : (selection.blockMove bounds.stride).Avoids state.registers.r8
      (BlockMove.blockTotal (entry :: entries)) ⟨state.registers.rdx, 4 * (entries.length + 1)⟩) :
    ∃ final, Runs (encode instrs) state
        ((selection.blockMove bounds.stride).inputAccesses index (entry :: entries)
          state.registers.r8) final ∧
      InFrontOf (items selection bounds) exit final ∧
      final.progress =
        (selection.blockMove bounds.stride).copyInputs (entry :: entries) state.progress ∧
      final.registers.saved = state.registers.saved := by
  have hbound := repeats_lt bounds.inputs
  -- The tables are read while blocks are stored, so that no block lies in what is left of them is
  -- part of the invariant.
  induction entries generalizing state entry index with
  | nil =>
      obtain ⟨hsource, hcount, -⟩ := htables
      obtain ⟨next, hturn, hnext, hprogress, -, -, -, -, hsaved⟩ :=
        runs_turn hassemble hinputs hfront hsource hcount hzeros
      have hlast : (state.registers.counter .r9d + 1).toInt = bounds.inputs.toInt := by
        rw [hindex, toInt_ofNat_add_one (by omega)]
        rw [List.length_nil, repeats] at hleft
        omega
      rw [hlast, if_neg (Int.lt_irrefl _)] at hnext
      rw [hindex, BitVec.toNat_ofNat, Nat.mod_eq_of_lt (by omega)] at hturn
      exact ⟨next, hturn.trans (.refl _ _), hnext, hprogress, hsaved⟩
  | cons later entries ih =>
      obtain ⟨hsource, hcount, hrest⟩ := htables
      obtain ⟨next, hturn, hnext, hprogress, hrsi, hrdx, hr9, hv0, hsaved⟩ :=
        runs_turn hassemble hinputs hfront hsource hcount hzeros
      rw [List.length_cons] at hleft hsources hcounts
      have hmore : (state.registers.counter .r9d + 1).toInt < bounds.inputs.toInt := by
        rw [hindex, toInt_ofNat_add_one (by omega)]
        rw [repeats] at hleft
        omega
      rw [if_pos hmore] at hnext
      have htotal : BlockMove.blockTotal (entry :: later :: entries) =
          repeats entry.count + BlockMove.blockTotal (later :: entries) := rfl
      rw [htotal] at hsources hcounts
      have hlaterSources := hsources.part 8 (8 * (entries.length + 1))
        (by omega) (by omega)
      have hlaterCounts := hcounts.part 4 (4 * (entries.length + 1))
        (by omega) (by omega)
      have htarget : next.registers.r8 = state.registers.r8 +
          BitVec.ofNat 64 (repeats entry.count) * (selection.blockMove bounds.stride).stride :=
        (congrArg Progress.target hprogress).trans (BlockMove.target_copyInput ..)
      obtain ⟨final, hrun, hfinal, hrestProgress, hrestSaved⟩ := ih (index + 1)
        (by omega) hnext
        (by
          rw [hrsi, hrdx]
          show Tables next.progress.memory _ _ _
          rw [hprogress]
          exact Tables.copyInput state.progress hrest
            (selection.blockMove_keepsLength _) (by rw [List.length_cons]; omega) _
            hlaterSources.left hlaterCounts.left)
        (by rw [hr9, hindex, BitVec.ofNat_add]; rfl) (hv0.trans hzeros)
        (by rw [hrsi, htarget]; exact hlaterSources.right)
        (by rw [hrdx, htarget]; exact hlaterCounts.right)
      rw [hindex, BitVec.toNat_ofNat, Nat.mod_eq_of_lt (by omega)] at hturn
      rw [htarget] at hrun
      refine ⟨final, hturn.trans hrun, hfinal, ?_, hrestSaved.trans hsaved⟩
      rw [hrestProgress, hprogress]
      rfl

end Program

end ChannelConcat
