import ChannelConcat.Call
import ChannelConcat.Proofs.Program.Loops

/-!
# Running copy routines

A machine at the entry of a copy routine, with a descriptor and its tables in memory, comes to the
return after the loops of `BlockMove.copyInputs`. Main statement: `run_generated` says what the
generated code of a specification makes of the memory.
-/

namespace ChannelConcat

open X86

namespace X86.State

/-- The eight bytes below the stack pointer, where a routine keeps the frame pointer. -/
def slot (state : State) : Region :=
  ⟨state.registers.rsp - 8, 8⟩

/-- The memory after the frame pointer was kept. -/
def pushed (state : State) : Memory :=
  state.memory.store (state.registers.rsp - 8) (Word.toBytes 8 state.registers.rbp)

/-- Keeping the frame pointer changes only the slot for it. -/
theorem pushed_of_not_contains {state : State} {a : Address} (h : ¬ state.slot.Contains a) :
    state.pushed a = state.memory a :=
  Memory.store_of_not_contains (by rwa [Word.length_toBytes])

end X86.State

/-- A machine at the entry of a routine: `rdi` points to a descriptor in memory, and the tables that
it names begin with the given entries. -/
structure AtEntry (state : State) (descriptor : Descriptor) (entries : List TableEntry) : Prop where
  position : state.position = 0
  load_descriptor : state.memory.load state.registers.rdi 24 = descriptor.bytes
  tables : Tables state.memory descriptor.sources descriptor.counts entries

/-- The parts of memory that a call keeps apart: the slot for the frame pointer is none of the
descriptor, the tables and the blocks that are loaded, and no block is stored into the tables. -/
structure Separate (move : BlockMove) (state : State) (descriptor : Descriptor)
    (entries : List TableEntry) : Prop where
  slot_descriptor : Region.Disjoint ⟨state.registers.rdi, 24⟩ state.slot
  slot_sources : Region.Disjoint ⟨descriptor.sources, 8 * entries.length⟩ state.slot
  slot_counts : Region.Disjoint ⟨descriptor.counts, 4 * entries.length⟩ state.slot
  slot_blocks : ∀ entry ∈ entries, move.Avoids entry.source (repeats entry.count) state.slot
  sources : move.Avoids descriptor.target (BlockMove.blockTotal entries)
    ⟨descriptor.sources, 8 * entries.length⟩
  counts : move.Avoids descriptor.target (BlockMove.blockTotal entries)
    ⟨descriptor.counts, 4 * entries.length⟩

/-- The descriptor and the tables are still in memory after the frame pointer was kept. -/
theorem AtEntry.pushed {move : BlockMove} {state : State} {descriptor : Descriptor}
    {entries : List TableEntry} (h : AtEntry state descriptor entries)
    (hsize : 8 * entries.length ≤ 2 ^ 64) (hseparate : Separate move state descriptor entries) :
    state.pushed.load state.registers.rdi 24 = descriptor.bytes ∧
      Tables state.pushed descriptor.sources descriptor.counts entries := by
  refine ⟨?_, h.tables.congr hsize ?_ ?_⟩
  · rw [← h.load_descriptor]
    exact Memory.load_congr fun a ha =>
      State.pushed_of_not_contains (hseparate.slot_descriptor a ha)
  · intro a ha
    exact (State.pushed_of_not_contains (hseparate.slot_sources a ha)).symm
  · intro a ha
    exact (State.pushed_of_not_contains (hseparate.slot_counts a ha)).symm

namespace Program

variable {selection : Selection} {bounds : LoopBounds} {instrs : List Instr} {state : State}
  {descriptor : Descriptor} {entries : List TableEntry}

/-! ## Entry and exit -/

/-- The instructions of the entry. -/
def entryInstrs : List Instr :=
  [.pushRbp, .movRbpRsp, .loadRsi, .loadRdx, .loadR8, .clearV0]

/-- The fields of a descriptor are read from memory as they were laid out. -/
theorem loadAddress_of_load {memory : Memory} {address : Address}
    (h : memory.load address 24 = descriptor.bytes) :
    memory.loadAddress address = descriptor.sources ∧
      memory.loadAddress (address + 8) = descriptor.counts ∧
      memory.loadAddress (address + 16) = descriptor.target := by
  have hsplit : memory.load address 24 = memory.load address 8 ++
      (memory.load (address + 8) 8 ++ memory.load (address + 16) 8) := by
    rw [show 24 = 8 + (8 + 8) from rfl, Memory.load_add, Memory.load_add, BitVec.add_assoc]
    rfl
  rw [hsplit, Descriptor.bytes, List.append_assoc] at h
  obtain ⟨hsources, hrest⟩ := List.append_inj h (by simp)
  obtain ⟨hcounts, htarget⟩ := List.append_inj hrest (by simp)
  simp only [Memory.loadAddress, hsources, hcounts, htarget, Word.ofBytes_toBytes, and_self]

/-- The entry keeps the frame pointer, reads the descriptor and clears the zeros. -/
theorem execAll_entryInstrs (h : state.pushed.load state.registers.rdi 24 = descriptor.bytes) :
    ∃ position, execAll entryInstrs state =
      { state with
        registers := { state.registers with
          rsp := state.registers.rsp - 8
          rbp := state.registers.rsp - 8
          rsi := descriptor.sources
          rdx := descriptor.counts
          r8 := descriptor.target }
        v0 := List.replicate vectorBytes 0
        memory := state.pushed
        position := position } := by
  obtain ⟨hsources, hcounts, htarget⟩ := loadAddress_of_load h
  rw [← hsources, ← hcounts, ← htarget]
  simp only [execAll, entryInstrs, List.foldl_cons, List.foldl_nil, Instr.exec]
  exact ⟨_, rfl⟩

/-- The exit restores the frame pointer and comes to the return. -/
theorem runs_ret (hassemble : assemble (items selection bounds) = some instrs)
    (hfront : InFrontOf (items selection bounds) exit state) :
    ∃ final, Runs (encode instrs) state [] final ∧ AtReturn (encode instrs) final ∧
      final.memory = state.memory ∧
      final.registers = { state.registers with
        rbp := state.memory.loadAddress state.registers.rsp
        rsp := state.registers.rsp + 8 } := by
  have hparts : exit = [Instr.clearUpper, .popRbp].map .plain ++ [.plain .ret] := rfl
  obtain ⟨hrun, hret⟩ := runs_execAll _ hassemble (hparts ▸ hfront) (by decide)
  simp only [execAll, List.foldl_cons, List.foldl_nil, Instr.exec] at hrun hret
  exact ⟨_, hrun, hret.atReturn hassemble, rfl, rfl⟩

/-- A machine at the start of the code is in front of the entry and what follows it. -/
theorem inFrontOf_entry (selection : Selection) (bounds : LoopBounds) (h : state.position = 0) :
    InFrontOf (items selection bounds) (entryInstrs.map .plain ++
      if 0 < bounds.inputs.toInt then
        .plain .clearR9 :: .mark .nextInput :: fromInput selection bounds
      else exit) state := by
  refine ⟨[], ?_, by rw [h, codeSize_nil]⟩
  split
  · rename_i hinputs
    exact (items_of_pos hinputs).symm
  · rename_i hinputs
    exact (items_of_not_pos hinputs).symm

/-- From its entry a routine with as many table entries as it has inputs comes to its exit, with the
blocks of all inputs moved. -/
theorem runs_exit_of_atEntry (hassemble : assemble (items selection bounds) = some instrs)
    (hentry : AtEntry state descriptor entries) (hlength : entries.length = repeats bounds.inputs)
    (hseparate : Separate (selection.blockMove bounds.stride) state descriptor entries) :
    ∃ last, Runs (encode instrs) state
        ((selection.blockMove bounds.stride).inputAccesses 0 entries descriptor.target) last ∧
      InFrontOf (items selection bounds) exit last ∧
      last.progress = (selection.blockMove bounds.stride).copyInputs entries
        ⟨descriptor.target, state.pushed⟩ ∧
      last.registers.saved = { state.registers.saved with
        rbp := state.registers.rsp - 8
        rsp := state.registers.rsp - 8 } := by
  have hbound := repeats_lt bounds.inputs
  obtain ⟨hdescriptor, htables⟩ := hentry.pushed (by omega) hseparate
  obtain ⟨position, hexec⟩ := execAll_entryInstrs hdescriptor
  obtain ⟨hrun, hnext⟩ := runs_execAll _ hassemble
    (inFrontOf_entry selection bounds hentry.position) (by decide)
  rw [hexec] at hrun hnext
  by_cases hinputs : 0 < bounds.inputs.toInt
  · rw [if_pos hinputs] at hnext
    obtain ⟨hclear, hfirst⟩ := hnext.exec hassemble rfl
    cases entries with
    | nil =>
        rw [List.length_nil, repeats] at hlength
        omega
    | cons entry entries =>
        obtain ⟨last, hloop, hlast, hprogress, hsaved⟩ := runs_exit hassemble hinputs 0
          (by rw [← hlength, List.length_cons, Nat.zero_add]) hfirst.mark htables rfl rfl
          hseparate.sources hseparate.counts
        exact ⟨last, (hrun.trans hclear).trans hloop, hlast, hprogress, hsaved⟩
  · rw [if_neg hinputs] at hnext
    have hnil : entries = [] :=
      List.eq_nil_of_length_eq_zero (hlength.trans (Int.toNat_of_nonpos (by omega)))
    subst hnil
    exact ⟨_, hrun, hnext, rfl, rfl⟩

/-- From its entry a routine comes to its return with the blocks of all inputs moved and all saved
registers as they were, except that the frame pointer is read back from where it was kept. -/
theorem runs_return (hassemble : assemble (items selection bounds) = some instrs)
    (hentry : AtEntry state descriptor entries) (hlength : entries.length = repeats bounds.inputs)
    (hseparate : Separate (selection.blockMove bounds.stride) state descriptor entries) :
    ∃ final, Runs (encode instrs) state
        ((selection.blockMove bounds.stride).inputAccesses 0 entries descriptor.target) final ∧
      AtReturn (encode instrs) final ∧
      final.memory = ((selection.blockMove bounds.stride).copyInputs entries
        ⟨descriptor.target, state.pushed⟩).memory ∧
      final.registers.saved = { state.registers.saved with
        rbp := final.memory.loadAddress (state.registers.rsp - 8) } := by
  obtain ⟨last, hrun, hlast, hprogress, hsaved⟩ :=
    runs_exit_of_atEntry hassemble hentry hlength hseparate
  obtain ⟨final, hexit, hreturn, hmemory, hregisters⟩ := runs_ret hassemble hlast
  refine ⟨final, hrun.trans_nil hexit, hreturn,
    hmemory.trans (congrArg Progress.memory hprogress), ?_⟩
  have hrsp : last.registers.rsp = state.registers.rsp - 8 := congrArg Saved.rsp hsaved
  have hfinal : final.registers.saved = { last.registers.saved with
      rbp := final.memory.loadAddress last.registers.rsp
      rsp := last.registers.rsp + 8 } := by
    rw [hregisters, hmemory]
    rfl
  rw [hfinal, hsaved, hrsp, BitVec.sub_add_cancel]
  rfl

end Program

/-- Generated code, run from its entry on tables with an entry for each input, comes to its return
with the blocks of these entries accessed and moved, and the saved registers as they were, except
that the frame pointer is read back from where it was kept. -/
theorem exists_runs_of_generate {isa : Isa} {spec : Spec} {code : List Byte} {state : State}
    {descriptor : Descriptor} {entries : List TableEntry} (hcode : generate isa spec = .ok code)
    (hentry : AtEntry state descriptor entries) (hrounds : spec.rounds ≤ entries.length)
    (hseparate : Separate spec.blockMove state descriptor (entries.take spec.rounds)) :
    ∃ final, Runs code state
        (spec.blockMove.inputAccesses 0 (entries.take spec.rounds) descriptor.target) final ∧
      AtReturn code final ∧
      final.memory = (spec.blockMove.copyInputs (entries.take spec.rounds)
        ⟨descriptor.target, state.pushed⟩).memory ∧
      final.registers.saved = { state.registers.saved with
        rbp := final.memory.loadAddress (state.registers.rsp - 8) } := by
  obtain ⟨selection, bounds, instrs, hselect, -, -, hbounds, hassemble, rfl⟩ :=
    generate_eq_ok_iff.1 hcode
  have hinputs : repeats bounds.inputs = spec.rounds := by
    rw [(Spec.bounds_of_loopBounds hbounds).1, Spec.rounds]
  have hlength : (entries.take spec.rounds).length = repeats bounds.inputs := by
    rw [List.length_take, Nat.min_eq_left hrounds, hinputs]
  have hentry : AtEntry state descriptor (entries.take spec.rounds) :=
    ⟨hentry.position, hentry.load_descriptor, hentry.tables.take _⟩
  have hmove : Separate (selection.blockMove bounds.stride) state descriptor
        (entries.take spec.rounds) ∧
      (selection.blockMove bounds.stride).copyInputs (entries.take spec.rounds) =
        spec.blockMove.copyInputs (entries.take spec.rounds) ∧
      (selection.blockMove bounds.stride).inputAccesses 0 (entries.take spec.rounds) =
        spec.blockMove.inputAccesses 0 (entries.take spec.rounds) := by
    by_cases hnone : spec.rounds = 0
    · -- Without inputs no stride is worked out, and none is needed.
      rw [hnone, List.take_zero] at hseparate ⊢
      exact ⟨⟨hseparate.slot_descriptor, hseparate.slot_sources, hseparate.slot_counts, nofun,
        fun k hk => absurd hk (Nat.not_lt_zero k), fun k hk => absurd hk (Nat.not_lt_zero k)⟩,
        rfl, rfl⟩
    · rw [← Spec.blockMove_eq hselect hbounds hnone]
      exact ⟨hseparate, rfl, rfl⟩
  rw [← hmove.2.1, ← hmove.2.2]
  exact Program.runs_return hassemble hentry hlength hmove.1

/-- Generated code comes to its return from every entry that keeps apart what it must. -/
theorem exists_return_of_generate {isa : Isa} {spec : Spec} {code : List Byte} {state : State}
    {descriptor : Descriptor} {entries : List TableEntry} (hcode : generate isa spec = .ok code)
    (hentry : AtEntry state descriptor entries) (hrounds : spec.rounds ≤ entries.length)
    (hseparate : Separate spec.blockMove state descriptor (entries.take spec.rounds)) :
    ∃ final, Reaches code state final ∧ AtReturn code final ∧
      final.memory = (spec.blockMove.copyInputs (entries.take spec.rounds)
        ⟨descriptor.target, state.pushed⟩).memory ∧
      final.registers.saved = { state.registers.saved with
        rbp := final.memory.loadAddress (state.registers.rsp - 8) } :=
  (exists_runs_of_generate hcode hentry hrounds hseparate).imp fun _ h => ⟨h.1.reaches, h.2⟩

/-- Generated code that is called with as many table entries as it has inputs accesses and moves the
blocks of them all. -/
theorem exists_runs_of_length {isa : Isa} {spec : Spec} {code : List Byte} {state : State}
    {descriptor : Descriptor} {entries : List TableEntry} (hcode : generate isa spec = .ok code)
    (hentry : AtEntry state descriptor entries) (hlength : entries.length = spec.rounds)
    (hseparate : Separate spec.blockMove state descriptor entries) :
    ∃ final, Runs code state (spec.blockMove.inputAccesses 0 entries descriptor.target) final ∧
      AtReturn code final ∧
      final.memory = (spec.blockMove.copyInputs entries ⟨descriptor.target, state.pushed⟩).memory ∧
      final.registers.saved = { state.registers.saved with
        rbp := final.memory.loadAddress (state.registers.rsp - 8) } := by
  have htake : entries.take spec.rounds = entries := by rw [← hlength, List.take_length]
  have hrounds := Nat.le_of_eq hlength.symm
  have hruns := exists_runs_of_generate hcode hentry hrounds (htake.symm ▸ hseparate)
  rwa [htake] at hruns

/-- What is copied does not depend on the frame pointer that was kept in the slot. -/
theorem Separate.copyInputs_pushed {move : BlockMove} {state : State} {descriptor : Descriptor}
    {entries : List TableEntry} (h : Separate move state descriptor entries) {a : Address}
    (ha : ¬ state.slot.Contains a) :
    (move.copyInputs entries ⟨descriptor.target, state.pushed⟩).memory a =
      (move.copyInputs entries ⟨descriptor.target, state.memory⟩).memory a := by
  have hagree : BlockMove.AgreeOutside state.slot ⟨descriptor.target, state.pushed⟩
      ⟨descriptor.target, state.memory⟩ :=
    ⟨rfl, fun a ha => State.pushed_of_not_contains ha⟩
  exact (hagree.copyInputs h.slot_blocks).memory a ha

/-- What generated code makes of the memory: run from its entry on a descriptor whose tables have an
entry for each of its inputs, it comes to a return after finitely many steps, and every byte outside
the slot for the frame pointer is then as after moving the blocks of these entries in turn. -/
theorem run_generated {isa : Isa} {spec : Spec} {code : List Byte} {state : State}
    {descriptor : Descriptor} {entries : List TableEntry} (hcode : generate isa spec = .ok code)
    (hentry : AtEntry state descriptor entries) (hrounds : spec.rounds ≤ entries.length)
    (hseparate : Separate spec.blockMove state descriptor (entries.take spec.rounds)) :
    ∃ steps, AtReturn code (run code steps state) ∧
      ∀ a, ¬ state.slot.Contains a → (run code steps state).memory a =
        (spec.blockMove.copyInputs (entries.take spec.rounds)
          ⟨descriptor.target, state.memory⟩).memory a := by
  obtain ⟨final, ⟨steps, rfl⟩, hreturn, hmemory, -⟩ :=
    exists_return_of_generate hcode hentry hrounds hseparate
  refine ⟨steps, hreturn, ?_⟩
  intro a ha
  rw [hmemory]
  exact hseparate.copyInputs_pushed ha

/-- The generated code for two inputs, the first of two blocks and the second of one, on buffers
that lie in windows of their own. -/
theorem run_generated_two_inputs :
    let spec : Spec := ⟨2, true, .f32, 4, 4, 128, ⟨1, 1, 1, 12⟩⟩
    let call : Call := ⟨[Array.replicate 32 130, Array.replicate 16 7], [2, 1],
      Array.replicate 48 0⟩
    let entries : List TableEntry :=
      [⟨(Call.Window.source 0).address, 2⟩, ⟨(Call.Window.source 1).address, 1⟩]
    ∃ code, generate .avx2 spec = .ok code ∧
      AtEntry call.entryState Call.descriptor entries ∧ spec.rounds ≤ entries.length ∧
      Separate spec.blockMove call.entryState Call.descriptor (entries.take spec.rounds) ∧
      ∃ steps, AtReturn code (run code steps call.entryState) ∧
        ∀ a, ¬ call.entryState.slot.Contains a → (run code steps call.entryState).memory a =
          (spec.blockMove.copyInputs (entries.take spec.rounds)
            ⟨Call.descriptor.target, call.entryState.memory⟩).memory a := by
  intro spec call entries
  obtain ⟨code, hcode⟩ : ∃ code, generate .avx2 spec = .ok code :=
    exists_generate ⟨.xmm, some .maxF32⟩ ⟨2, 16⟩ rfl rfl (by decide) rfl
  have hentry : AtEntry call.entryState Call.descriptor entries :=
    ⟨rfl, by decide +kernel, by decide +kernel, by decide +kernel, by decide +kernel,
      by decide +kernel, trivial⟩
  have hrounds : spec.rounds ≤ entries.length := by decide
  have hblocks : ∀ entry ∈ entries.take spec.rounds, ∀ k < repeats entry.count,
      (spec.blockMove.region entry.source k).Apart call.entryState.slot := by decide +kernel
  have hsources : ∀ k < BlockMove.blockTotal (entries.take spec.rounds),
      (spec.blockMove.region Call.descriptor.target k).Apart
        ⟨Call.descriptor.sources, 8 * (entries.take spec.rounds).length⟩ := by decide +kernel
  have hcounts : ∀ k < BlockMove.blockTotal (entries.take spec.rounds),
      (spec.blockMove.region Call.descriptor.target k).Apart
        ⟨Call.descriptor.counts, 4 * (entries.take spec.rounds).length⟩ := by decide +kernel
  have hseparate : Separate spec.blockMove call.entryState Call.descriptor
      (entries.take spec.rounds) :=
    ⟨Region.Apart.disjoint (by decide +kernel), Region.Apart.disjoint (by decide +kernel),
      Region.Apart.disjoint (by decide +kernel),
      fun entry hmem k hk => (hblocks entry hmem k hk).disjoint,
      fun k hk => (hsources k hk).disjoint, fun k hk => (hcounts k hk).disjoint⟩
  exact ⟨code, hcode, hentry, hrounds, hseparate, run_generated hcode hentry hrounds hseparate⟩

end ChannelConcat
