import ChannelConcat.Proofs.Program.Control
import ChannelConcat.Proofs.RepeatedCalls
import ChannelConcat.Proofs.Tiling

/-!
# The calling convention

A routine that is called with everything apart from everything else hands back all saved registers
as it got them. All that it writes is the slot for the frame pointer and the blocks at the target,
and whenever it clamps, it clamps against zeros. Main definitions: `AllApart`, `Returned`. Main
statement: `convention_of_generate`.
-/

namespace ChannelConcat

open X86

/-- What a call keeps apart: besides what it must, the blocks at the target are none of the stack,
the descriptor and the blocks that are loaded. -/
structure AllApart (move : BlockMove) (state : State) (descriptor : Descriptor)
    (entries : List TableEntry) : Prop extends Separate move state descriptor entries where
  target_slot : move.Avoids descriptor.target (BlockMove.blockTotal entries) state.slot
  target_return : move.Avoids descriptor.target (BlockMove.blockTotal entries)
    ⟨state.registers.rsp, 8⟩
  target_descriptor : move.Avoids descriptor.target (BlockMove.blockTotal entries)
    ⟨state.registers.rdi, 24⟩
  target_blocks : ∀ entry ∈ entries, ∀ k < repeats entry.count,
    move.Avoids descriptor.target (BlockMove.blockTotal entries) (move.region entry.source k)

/-- What a caller can rely on when a routine has come to its return: the saved registers, the stack
pointer among them, are as they were, and so are the return address, the descriptor, the tables, the
blocks that were loaded, and all bytes but the slot for the frame pointer and the blocks at the
target. -/
structure Returned (move : BlockMove) (state : State) (descriptor : Descriptor)
    (entries : List TableEntry) (final : State) : Prop where
  saved : final.registers.saved = state.registers.saved
  return_address : final.memory.load state.registers.rsp 8 =
    state.memory.load state.registers.rsp 8
  load_descriptor : final.memory.load state.registers.rdi 24 = descriptor.bytes
  tables : Tables final.memory descriptor.sources descriptor.counts entries
  blocks : ∀ entry ∈ entries, ∀ k < repeats entry.count,
    final.memory.load (move.region entry.source k).start move.bytes =
      state.memory.load (move.region entry.source k).start move.bytes
  kept : ∀ a, ¬ state.slot.Contains a →
    (∀ k < BlockMove.blockTotal entries, ¬ (move.region descriptor.target k).Contains a) →
    final.memory a = state.memory a

/-- The slot for the frame pointer is no part of the return address. -/
theorem X86.State.return_disjoint_slot (state : State) :
    Region.Disjoint ⟨state.registers.rsp, 8⟩ state.slot := by
  refine Region.Apart.disjoint (.inr (.inr ⟨?_, ?_⟩)) <;>
    simp only [State.slot, BitVec.ofNat_eq_ofNat, BitVec.toNat_sub, BitVec.toNat_ofNat] <;> omega

variable {isa : Isa} {spec : Spec} {code : List Byte} {state : State} {descriptor : Descriptor}
  {entries : List TableEntry}

/-- Generated code is the assembled routine of the instructions that are selected. -/
theorem exists_assemble_of_generate (hcode : generate isa spec = .ok code) :
    ∃ selection bounds instrs, spec.bits = selection.width.bits ∧
      assemble (Program.items selection bounds) = some instrs ∧ encode instrs = code := by
  obtain ⟨selection, bounds, instrs, hselect, -, -, -, hassemble, hencode⟩ :=
    generate_eq_ok_iff.1 hcode
  exact ⟨selection, bounds, instrs, (select_eq_ok_iff.1 hselect).1, hassemble, hencode⟩

/-- The first step writes the slot for the frame pointer, and every later one that writes memory
writes a block at the target. -/
theorem region_of_written (hcode : generate isa spec = .ok code)
    (hentry : AtEntry state descriptor entries) (hlength : entries.length = spec.rounds)
    (hseparate : Separate spec.blockMove state descriptor entries) {i : Nat} {region : Region}
    (h : written? code (run code i state) = some region) :
    i = 0 ∧ region = state.slot ∨
      ∃ k < BlockMove.blockTotal entries, region = spec.blockMove.region descriptor.target k := by
  obtain ⟨final, ⟨steps, hfinal, htrace⟩, hreturn, -⟩ :=
    exists_runs_of_length hcode hentry hlength hseparate
  obtain ⟨selection, bounds, instrs, -, hassemble, rfl⟩ := exists_assemble_of_generate hcode
  obtain ⟨⟨instr, size⟩, hfetch, hwrites⟩ := Option.bind_eq_some_iff.1 h
  by_cases hpush : instr = .pushRbp
  · subst hpush
    cases i with
    | zero => exact .inl ⟨rfl, (Option.some.inj hwrites).symm⟩
    | succ i =>
        have hunderway := Program.underway_run hassemble hentry.position i
        exact absurd rfl (hunderway.ne_pushRbp hassemble hfetch)
  · obtain ⟨input, haccess⟩ := Instr.exists_access_of_written hpush hwrites
    -- The store is made before the return, so it is among the accesses of the whole run.
    have hi : i < steps := by
      refine Nat.lt_of_not_le fun hle => ?_
      obtain ⟨more, rfl⟩ := Nat.exists_eq_add_of_le hle
      rw [run_add, hfinal, run_of_atReturn hreturn, hreturn] at hfetch
      cases hfetch
      cases hwrites
    have hnext : nextAccess? (encode instrs) (run (encode instrs) i state) =
        some ⟨.store, input, region⟩ := by
      rw [nextAccess?, hfetch]
      exact haccess
    have hmem := mem_accesses hi hnext
    rw [htrace] at hmem
    have hstore : region ∈ stores (spec.blockMove.inputAccesses 0 entries descriptor.target) :=
      List.mem_map.2 ⟨_, List.mem_filter.2 ⟨hmem, rfl⟩, rfl⟩
    rw [BlockMove.stores_inputAccesses] at hstore
    obtain ⟨k, hk, hregion⟩ := List.mem_map.1 hstore
    exact .inr ⟨k, List.mem_range.1 hk, hregion.symm⟩

/-- Whatever a run has come to, only the slot for the frame pointer and the blocks at the target
have changed. -/
theorem memory_run_of_not_contains (hcode : generate isa spec = .ok code)
    (hentry : AtEntry state descriptor entries) (hlength : entries.length = spec.rounds)
    (hseparate : Separate spec.blockMove state descriptor entries) {a : Address}
    (hslot : ¬ state.slot.Contains a)
    (htarget : ∀ k < BlockMove.blockTotal entries,
      ¬ (spec.blockMove.region descriptor.target k).Contains a) (steps : Nat) :
    (run code steps state).memory a = state.memory a := by
  refine run_of_not_written fun i _ region hregion => ?_
  rcases region_of_written hcode hentry hlength hseparate hregion with ⟨-, rfl⟩ | ⟨k, hk, rfl⟩
  · exact hslot
  · exact htarget k hk

/-- The frame pointer is read back from the slot. -/
theorem loadAddress_slot {move : BlockMove} (hkeeps : move.KeepsLength)
    (havoids : move.Avoids descriptor.target (BlockMove.blockTotal entries) state.slot) :
    (move.copyInputs entries ⟨descriptor.target, state.pushed⟩).memory.loadAddress
      (state.registers.rsp - 8) = state.registers.rbp := by
  have hcopy : (move.copyInputs entries ⟨descriptor.target, state.pushed⟩).memory.load
      (state.registers.rsp - 8) 8 = state.pushed.load (state.registers.rsp - 8) 8 :=
    Memory.load_congr fun a ha =>
      BlockMove.copyInputs_of_not_contains hkeeps fun k hk hstored => havoids k hk a hstored ha
  have hpushed : state.pushed.load (state.registers.rsp - 8) 8 =
      Word.toBytes 8 state.registers.rbp := by
    have hload := Memory.load_store state.memory (state.registers.rsp - 8)
      (show (Word.toBytes 8 state.registers.rbp).length ≤ 2 ^ 64 by simp)
    rwa [Word.length_toBytes] at hload
  rw [Memory.loadAddress, hcopy, hpushed, Word.ofBytes_toBytes]

/-- What a caller can rely on at the return. -/
theorem AllApart.returned (hcode : generate isa spec = .ok code)
    (hentry : AtEntry state descriptor entries) (hlength : entries.length = spec.rounds)
    (h : AllApart spec.blockMove state descriptor entries) {steps : Nat}
    (hreturn : AtReturn code (run code steps state)) :
    Returned spec.blockMove state descriptor entries (run code steps state) := by
  obtain ⟨final, hrun, hfinal, hmemory, hsaved⟩ :=
    exists_runs_of_length hcode hentry hlength h.toSeparate
  obtain rfl := hrun.reaches.unique hfinal ⟨steps, rfl⟩ hreturn
  have hkept : ∀ a, ¬ state.slot.Contains a →
      (∀ k < BlockMove.blockTotal entries,
        ¬ (spec.blockMove.region descriptor.target k).Contains a) →
      (run code steps state).memory a = state.memory a := fun a hslot htarget =>
    memory_run_of_not_contains hcode hentry hlength h.toSeparate hslot htarget steps
  -- What is apart from the slot and from the blocks at the target is as it was.
  have hload {region : Region} (hslot : region.Disjoint state.slot)
      (htarget : spec.blockMove.Avoids descriptor.target (BlockMove.blockTotal entries) region) :
      ∀ a, region.Contains a → (run code steps state).memory a = state.memory a :=
    fun a ha => hkept a (hslot a ha) fun k hk hstored => htarget k hk a hstored ha
  have hbound := repeats_lt (BitVec.ofNat 32 spec.inputs)
  constructor
  case saved =>
    rw [hsaved, hmemory, loadAddress_slot (keepsLength_of_generate hcode) h.target_slot]
    rfl
  case return_address => exact Memory.load_congr (hload state.return_disjoint_slot h.target_return)
  case load_descriptor =>
    rw [← hentry.load_descriptor]
    exact Memory.load_congr (hload h.slot_descriptor h.target_descriptor)
  case tables =>
    refine hentry.tables.congr (by rw [hlength, Spec.rounds]; omega) ?_ ?_
    · exact fun a ha => (hload h.slot_sources h.sources a ha).symm
    · exact fun a ha => (hload h.slot_counts h.counts a ha).symm
  case blocks =>
    intro entry hmem k hk
    have htarget := h.target_blocks entry hmem k hk
    exact Memory.load_congr (hload (h.slot_blocks entry hmem k hk) htarget)
  case kept => exact hkept

/-- A routine respects the calling convention. It comes to its return, and whatever a caller can
rely on then holds. The first of its steps writes the slot for the frame pointer, and every other
that writes memory writes a block at the target. And whenever it clamps, in whatever iteration, it
clamps vectors of the width that is asked for, and register 0 is zero over this width. -/
theorem convention_of_generate (hcode : generate isa spec = .ok code)
    (hentry : AtEntry state descriptor entries) (hlength : entries.length = spec.rounds)
    (h : AllApart spec.blockMove state descriptor entries) :
    (∃ steps, AtReturn code (run code steps state)) ∧
    (∀ steps, AtReturn code (run code steps state) →
      Returned spec.blockMove state descriptor entries (run code steps state)) ∧
    (∀ i region, written? code (run code i state) = some region →
      i = 0 ∧ region = state.slot ∨
        ∃ k < BlockMove.blockTotal entries, region = spec.blockMove.region descriptor.target k) ∧
    ∀ i width clamp size, fetch code (run code i state) = some (.clampV1 width clamp, size) →
      width.bits = spec.bits ∧
        (run code i state).v0.take width.bytes = List.replicate width.bytes 0 := by
  refine ⟨?_, fun steps => h.returned hcode hentry hlength,
    fun i region => region_of_written hcode hentry hlength h.toSeparate, ?_⟩
  · obtain ⟨final, ⟨steps, rfl, -⟩, hreturn, -⟩ :=
      exists_runs_of_length hcode hentry hlength h.toSeparate
    exact ⟨steps, hreturn⟩
  · intro i width clamp size hfetch
    obtain ⟨selection, bounds, instrs, hbits, hassemble, rfl⟩ := exists_assemble_of_generate hcode
    cases i with
    | zero =>
        rw [run, Program.fetch_entry hassemble hentry.position] at hfetch
        cases hfetch
    | succ i =>
        obtain ⟨rfl, hzeros⟩ :=
          (Program.underway_run hassemble hentry.position i).zeros_of_clamp hassemble hfetch
        have hwidth : selection.width.bytes ≤ vectorBytes := by cases selection.width <;> decide
        rw [hzeros, List.take_replicate, Nat.min_eq_left hwidth]
        exact ⟨hbits.symm, rfl⟩

/-- The call of a routine for two inputs, with one of their blocks wider than the stride, on buffers
that lie in windows of their own. -/
theorem convention_of_generate_two_inputs :
    let spec : Spec := ⟨2, true, .f32, 4, 2, 256, ⟨1, 1, 1, 6⟩⟩
    let call : Call := ⟨[Array.replicate 40 130, Array.replicate 32 7], [2, 1],
      Array.replicate 48 0⟩
    let entries : List TableEntry :=
      [⟨(Call.Window.source 0).address, 2⟩, ⟨(Call.Window.source 1).address, 1⟩]
    ∃ code, generate .avx2 spec = .ok code ∧ AtEntry call.entryState Call.descriptor entries ∧
      entries.length = spec.rounds ∧
      AllApart spec.blockMove call.entryState Call.descriptor entries ∧
      ∃ steps, AtReturn code (run code steps call.entryState) ∧
        Returned spec.blockMove call.entryState Call.descriptor entries
          (run code steps call.entryState) := by
  intro spec call entries
  obtain ⟨code, hcode⟩ : ∃ code, generate .avx2 spec = .ok code :=
    exists_generate ⟨.ymm, some .maxF32⟩ ⟨2, 8⟩ rfl rfl (by decide) rfl
  have hentry : AtEntry call.entryState Call.descriptor entries :=
    ⟨rfl, by decide +kernel, by decide +kernel, by decide +kernel, by decide +kernel,
      by decide +kernel, trivial⟩
  have hlength : entries.length = spec.rounds := by decide
  have hblocks : ∀ entry ∈ entries, ∀ j < repeats entry.count,
      (spec.blockMove.region entry.source j).Apart call.entryState.slot ∧
        ∀ k < BlockMove.blockTotal entries, (spec.blockMove.region Call.descriptor.target k).Apart
          (spec.blockMove.region entry.source j) := by decide +kernel
  have htarget : ∀ k < BlockMove.blockTotal entries, ∀ region ∈
      [⟨Call.descriptor.sources, 8 * entries.length⟩, ⟨Call.descriptor.counts, 4 * entries.length⟩,
        call.entryState.slot, ⟨call.entryState.registers.rsp, 8⟩,
        ⟨call.entryState.registers.rdi, 24⟩],
      (spec.blockMove.region Call.descriptor.target k).Apart region := by decide +kernel
  have happart : AllApart spec.blockMove call.entryState Call.descriptor entries :=
    ⟨⟨Region.Apart.disjoint (by decide +kernel), Region.Apart.disjoint (by decide +kernel),
      Region.Apart.disjoint (by decide +kernel),
      fun entry hmem j hj => (hblocks entry hmem j hj).1.disjoint,
      fun k hk => (htarget k hk _ (by simp)).disjoint,
      fun k hk => (htarget k hk _ (by simp)).disjoint⟩,
      fun k hk => (htarget k hk _ (by simp)).disjoint,
      fun k hk => (htarget k hk _ (by simp)).disjoint,
      fun k hk => (htarget k hk _ (by simp)).disjoint,
      fun entry hmem j hj k hk => ((hblocks entry hmem j hj).2 k hk).disjoint⟩
  obtain ⟨⟨steps, hreturn⟩, hreturned, -, -⟩ :=
    convention_of_generate hcode hentry hlength happart
  exact ⟨code, hcode, hentry, hlength, happart, steps, hreturn, hreturned steps hreturn⟩

end ChannelConcat
