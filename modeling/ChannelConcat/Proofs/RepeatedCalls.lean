import ChannelConcat.Proofs.LastStore
import ChannelConcat.Proofs.Program.Run
import Mathlib.Data.Set.Basic

/-!
# Calls of a routine one after the other

A routine is called a number of times on the same tables, sources and target. Each call may begin
with other registers, and with other contents of what the caller keeps for itself, its stack and the
descriptor; the rest of the memory is as the last call left it. Main definitions: `Calls`,
`Repeatable`. Main statement: `memory_of_calls` says that any number of calls leaves what one
leaves.
-/

namespace ChannelConcat

open X86

/-- A machine enters a routine, with a memory that differs from the given one only in what the
caller keeps for itself. The slot for the frame pointer is part of that and is apart from the
descriptor. -/
structure Enters (own : Set Address) (descriptor : Descriptor) (memory : Memory) (state : State) :
    Prop where
  position : state.position = 0
  load_descriptor : state.memory.load state.registers.rdi 24 = descriptor.bytes
  slot_descriptor : Region.Disjoint ⟨state.registers.rdi, 24⟩ state.slot
  slot_own : ∀ a, state.slot.Contains a → a ∈ own
  memory : ∀ a ∉ own, state.memory a = memory a

/-- A number of calls in a row, each of which comes to its return, lead from one memory to another.
-/
inductive Calls (code : List Byte) (own : Set Address) (descriptor : Descriptor)
    (memory : Memory) : Nat → Memory → Prop
  | none : Calls code own descriptor memory 0 memory
  | another {times : Nat} {last : Memory} {state final : State}
      (before : Calls code own descriptor memory times last)
      (enters : Enters own descriptor last state) (reaches : Reaches code state final)
      (atReturn : AtReturn code final) : Calls code own descriptor memory (times + 1) final.memory

/-- The memory has tables with the given entries, no block is stored over the tables or over a block
that is loaded, and the caller keeps none of these for itself. -/
structure Repeatable (move : BlockMove) (own : Set Address) (descriptor : Descriptor)
    (entries : List TableEntry) (memory : Memory) : Prop where
  tables : Tables memory descriptor.sources descriptor.counts entries
  own_sources : ∀ a, Region.Contains ⟨descriptor.sources, 8 * entries.length⟩ a → a ∉ own
  own_counts : ∀ a, Region.Contains ⟨descriptor.counts, 4 * entries.length⟩ a → a ∉ own
  own_blocks : ∀ source ∈ move.cursors entries,
    ∀ a, Region.Contains ⟨source, move.bytes⟩ a → a ∉ own
  sources : move.Avoids descriptor.target (BlockMove.blockTotal entries)
    ⟨descriptor.sources, 8 * entries.length⟩
  counts : move.Avoids descriptor.target (BlockMove.blockTotal entries)
    ⟨descriptor.counts, 4 * entries.length⟩
  blocks : ∀ source ∈ move.cursors entries,
    move.Avoids descriptor.target (BlockMove.blockTotal entries) ⟨source, move.bytes⟩

/-- Outside the blocks at the target and what the caller keeps for itself, two memories are alike.
-/
def KeptOutside (move : BlockMove) (own : Set Address) (descriptor : Descriptor)
    (entries : List TableEntry) (memory last : Memory) : Prop :=
  ∀ a ∉ own,
    (∀ k < BlockMove.blockTotal entries, ¬ (move.region descriptor.target k).Contains a) →
    last a = memory a

/-- What calls leave of a memory: each byte that a block is stored over is that of the last such
block, as its source was at first, and every other byte is as it was at first. -/
structure Copied (move : BlockMove) (own : Set Address) (descriptor : Descriptor)
    (entries : List TableEntry) (memory last : Memory) : Prop where
  stored : ∀ a ∉ own, ∀ k source,
    move.LastStore descriptor.target (BlockMove.blockTotal entries) k a →
    (move.cursors entries)[k]? = some source →
    (move.change (memory.load source move.bytes))[
        (a - (move.region descriptor.target k).start).toNat]? = some (last a)
  kept : KeptOutside move own descriptor entries memory last

/-! ## One call -/

namespace Repeatable

variable {move : BlockMove} {own : Set Address} {descriptor : Descriptor}
  {entries : List TableEntry} {memory last other : Memory} {state : State}

/-- What is loaded from outside the target and the caller's own memory is as it was at first. -/
theorem load_eq (h : Repeatable move own descriptor entries memory)
    (hkept : KeptOutside move own descriptor entries memory last)
    (henters : Enters own descriptor last state) {source : Address}
    (hsource : source ∈ move.cursors entries) :
    state.memory.load source move.bytes = memory.load source move.bytes := by
  refine Memory.load_congr fun a ha => ?_
  have hown := h.own_blocks source hsource a ha
  rw [henters.memory a hown]
  exact hkept a hown fun k hk hstored => h.blocks source hsource k hk a hstored ha

/-- The tables are in memory at every entry. -/
theorem atEntry (h : Repeatable move own descriptor entries memory)
    (hsize : 8 * entries.length ≤ 2 ^ 64)
    (hkept : KeptOutside move own descriptor entries memory last)
    (henters : Enters own descriptor last state) : AtEntry state descriptor entries := by
  refine ⟨henters.position, henters.load_descriptor, h.tables.congr hsize ?_ ?_⟩
  · intro a ha
    have hown := h.own_sources a ha
    rw [henters.memory a hown]
    exact (hkept a hown fun k hk hstored => h.sources k hk a hstored ha).symm
  · intro a ha
    have hown := h.own_counts a ha
    rw [henters.memory a hown]
    exact (hkept a hown fun k hk hstored => h.counts k hk a hstored ha).symm

/-- Every call keeps apart what it must. -/
theorem separate (h : Repeatable move own descriptor entries memory)
    (henters : Enters own descriptor last state) : Separate move state descriptor entries := by
  refine ⟨henters.slot_descriptor, ?_, ?_, ?_, h.sources, h.counts⟩
  · exact fun a ha hslot => h.own_sources a ha (henters.slot_own a hslot)
  · exact fun a ha hslot => h.own_counts a ha (henters.slot_own a hslot)
  · intro entry hentry k hk a ha hslot
    have hown := BlockMove.forall_mem_cursors.1 h.own_blocks entry hentry k hk
    exact hown a ha (henters.slot_own a hslot)

end Repeatable

/-- A routine stores as many bytes of a block as it loads. -/
theorem keepsLength_of_generate {isa : Isa} {spec : Spec} {code : List Byte}
    (hcode : generate isa spec = .ok code) : spec.blockMove.KeepsLength := by
  obtain ⟨selection, -, -, hselect, -⟩ := generate_eq_ok_iff.1 hcode
  exact Spec.blockMove_keepsLength hselect

variable {isa : Isa} {spec : Spec} {code : List Byte} {own : Set Address} {descriptor : Descriptor}
  {entries : List TableEntry} {memory last : Memory} {state : State} {times : Nat}

/-- A call comes to its return, with what calls leave in memory if the memory was kept up to it. -/
theorem Enters.exists_copied (hcode : generate isa spec = .ok code)
    (hlength : entries.length = spec.rounds)
    (h : Repeatable spec.blockMove own descriptor entries memory)
    (hkept : KeptOutside spec.blockMove own descriptor entries memory last)
    (henters : Enters own descriptor last state) :
    ∃ final, Reaches code state final ∧ AtReturn code final ∧
      Copied spec.blockMove own descriptor entries memory final.memory := by
  have hbound := repeats_lt (BitVec.ofNat 32 spec.inputs)
  have hentry := h.atEntry (by rw [hlength, Spec.rounds]; omega) hkept henters
  have hseparate := h.separate henters
  obtain ⟨final, hrun, hreturn, hfinal, -⟩ := exists_runs_of_length hcode hentry hlength hseparate
  have hmemory : ∀ a ∉ own, final.memory a =
      (spec.blockMove.copyInputs entries ⟨descriptor.target, state.memory⟩).memory a := by
    intro a ha
    rw [hfinal, hseparate.copyInputs_pushed fun hslot => ha (henters.slot_own a hslot)]
  have hkeeps := keepsLength_of_generate hcode
  refine ⟨final, hrun.reaches, hreturn, ?_, ?_⟩
  · intro a ha k source hstore hsource
    rw [hmemory a ha, ← h.load_eq hkept henters (List.mem_of_getElem? hsource)]
    exact hstore.memory_copyInputs hkeeps state.memory hsource h.blocks
  · intro a ha houtside
    have hcopy : (spec.blockMove.copyInputs entries ⟨descriptor.target, state.memory⟩).memory a =
        state.memory a := BlockMove.copyInputs_of_not_contains hkeeps houtside
    rw [hmemory a ha, hcopy, henters.memory a ha]
    exact hkept a ha houtside

/-! ## Any number of calls -/

/-- What calls leave in memory is determined by the memory at first. -/
theorem Copied.unique {move : BlockMove} {other : Memory}
    (h : Copied move own descriptor entries memory last)
    (hother : Copied move own descriptor entries memory other) {a : Address} (ha : a ∉ own) :
    last a = other a := by
  by_cases hcovered : ∃ k < BlockMove.blockTotal entries,
      (move.region descriptor.target k).Contains a
  · obtain ⟨k, hstore⟩ := BlockMove.exists_lastStore hcovered
    have hlt : k < (move.cursors entries).length := by
      rw [BlockMove.length_cursors]
      exact hstore.lt
    have hsource := List.getElem?_eq_getElem hlt
    have hvalue := h.stored a ha k _ hstore hsource
    rw [hother.stored a ha k _ hstore hsource] at hvalue
    exact (Option.some.inj hvalue).symm
  · have houtside : ∀ k < BlockMove.blockTotal entries,
        ¬ (move.region descriptor.target k).Contains a :=
      fun k hk hcontains => hcovered ⟨k, hk, hcontains⟩
    rw [h.kept a ha houtside, hother.kept a ha houtside]

/-- Each of a number of calls leaves what calls leave, and none of them changes anything else. -/
theorem Calls.copied (hcode : generate isa spec = .ok code)
    (hlength : entries.length = spec.rounds)
    (h : Repeatable spec.blockMove own descriptor entries memory)
    (hcalls : Calls code own descriptor memory times last) :
    KeptOutside spec.blockMove own descriptor entries memory last ∧
      (0 < times → Copied spec.blockMove own descriptor entries memory last) := by
  induction hcalls with
  | none => exact ⟨fun _ _ _ => rfl, fun htimes => absurd htimes (Nat.lt_irrefl 0)⟩
  | another before henters hreaches hreturn ih =>
      obtain ⟨final, hother, hotherReturn, hcopied⟩ :=
        henters.exists_copied hcode hlength h ih.1
      obtain rfl := hreaches.unique hreturn hother hotherReturn
      exact ⟨hcopied.kept, fun _ => hcopied⟩

/-- A routine keeps no state between calls. However often it was called, it can be called once more.
And however often it was called, but at least once, the memory is as after one call: each byte that
a block is stored over is that of the last such block, whatever was there before, and every other
byte is as it was at first. -/
theorem memory_of_calls (hcode : generate isa spec = .ok code)
    (hlength : entries.length = spec.rounds)
    (h : Repeatable spec.blockMove own descriptor entries memory) :
    (∀ times last state, Calls code own descriptor memory times last →
      Enters own descriptor last state → ∃ final, Reaches code state final ∧ AtReturn code final) ∧
    ∀ times last, 0 < times → Calls code own descriptor memory times last →
      Copied spec.blockMove own descriptor entries memory last ∧
      ∀ once, Calls code own descriptor memory 1 once → ∀ a ∉ own, last a = once a := by
  constructor
  · intro times last state hcalls henters
    obtain ⟨final, hreaches, hreturn, -⟩ :=
      henters.exists_copied hcode hlength h (hcalls.copied hcode hlength h).1
    exact ⟨final, hreaches, hreturn⟩
  · intro times last htimes hcalls
    have hcopied := (hcalls.copied hcode hlength h).2 htimes
    refine ⟨hcopied, fun once honce a ha => ?_⟩
    exact hcopied.unique ((honce.copied hcode hlength h).2 Nat.one_pos) ha

/-- A routine of two inputs whose cursors go back by half a vector after each block is called twice,
each time with the same stack and the same place for the descriptor. -/
theorem memory_of_calls_two_inputs :
    let spec : Spec := ⟨2, true, .s8, 1, 0xFFFFFFF8, 128, ⟨1, 1, 1, 24⟩⟩
    let call : Call := ⟨[Array.replicate 16 130, Array.replicate 16 7], [2, 1],
      Array.replicate 16 1⟩
    let entries : List TableEntry :=
      [⟨(Call.Window.source 0).address, 2⟩, ⟨(Call.Window.source 1).address, 1⟩]
    let own : Set Address := {a | call.entryState.slot.Contains a ∨
      Region.Contains ⟨call.entryState.registers.rdi, 24⟩ a}
    ∃ code, generate .avx2 spec = .ok code ∧ entries.length = spec.rounds ∧
      Repeatable spec.blockMove own Call.descriptor entries call.memory ∧
      ∃ last, Calls code own Call.descriptor call.memory 2 last ∧
        Copied spec.blockMove own Call.descriptor entries call.memory last := by
  intro spec call entries own
  obtain ⟨code, hcode⟩ : ∃ code, generate .avx2 spec = .ok code :=
    exists_generate ⟨.xmm, some .maxI8⟩ ⟨2, -8⟩ rfl rfl (by decide) (by
      simp [spec, Spec.loopBounds, Spec.blockBytes, Size.mul, Size.limit, Except.map])
  have hlength : entries.length = spec.rounds := by decide
  have hown {region : Region} (hslot : region.Apart call.entryState.slot)
      (hdescriptor : region.Apart ⟨call.entryState.registers.rdi, 24⟩) :
      ∀ a, region.Contains a → a ∉ own := fun a ha =>
    not_or.2 ⟨hslot.disjoint a ha, hdescriptor.disjoint a ha⟩
  have hblocks : ∀ entry ∈ entries, ∀ j < repeats entry.count,
      (spec.blockMove.region entry.source j).Apart call.entryState.slot ∧
        (spec.blockMove.region entry.source j).Apart ⟨call.entryState.registers.rdi, 24⟩ ∧
        ∀ k < BlockMove.blockTotal entries, (spec.blockMove.region Call.descriptor.target k).Apart
          (spec.blockMove.region entry.source j) := by decide +kernel
  have htables : ∀ k < BlockMove.blockTotal entries,
      (spec.blockMove.region Call.descriptor.target k).Apart
          ⟨Call.descriptor.sources, 8 * entries.length⟩ ∧
        (spec.blockMove.region Call.descriptor.target k).Apart
          ⟨Call.descriptor.counts, 4 * entries.length⟩ := by decide +kernel
  have hrepeatable : Repeatable spec.blockMove own Call.descriptor entries call.memory :=
    ⟨⟨by decide +kernel, by decide +kernel, by decide +kernel, by decide +kernel, trivial⟩,
      hown (by decide +kernel) (by decide +kernel), hown (by decide +kernel) (by decide +kernel),
      BlockMove.forall_mem_cursors.2 fun entry hentry j hj =>
        hown (hblocks entry hentry j hj).1 (hblocks entry hentry j hj).2.1,
      fun k hk => (htables k hk).1.disjoint, fun k hk => (htables k hk).2.disjoint,
      BlockMove.forall_mem_cursors.2 fun entry hentry j hj k hk =>
        ((hblocks entry hentry j hj).2.2 k hk).disjoint⟩
  -- Before each call the caller writes what it keeps for itself as it was at first.
  have henters (last : Memory) : ∃ state, Enters own Call.descriptor last state := by
    classical
    have hslot : Region.Disjoint ⟨call.entryState.registers.rdi, 24⟩ call.entryState.slot :=
      Region.Apart.disjoint (by decide +kernel)
    refine ⟨{ call.entryState with memory := fun a => if a ∈ own then call.memory a else last a },
      rfl, ?_, hslot, fun a ha => .inl ha, fun a ha => if_neg ha⟩
    have hload : call.memory.load call.entryState.registers.rdi 24 = Call.descriptor.bytes := by
      decide +kernel
    rw [← hload]
    exact Memory.load_congr fun a ha => if_pos (.inr ha)
  obtain ⟨hcallable, hmemory⟩ := memory_of_calls hcode hlength hrepeatable
  obtain ⟨first, hfirst⟩ := henters call.memory
  obtain ⟨middle, hmiddle, hreturn⟩ := hcallable 0 call.memory first .none hfirst
  have honce := Calls.none.another hfirst hmiddle hreturn
  obtain ⟨second, hsecond⟩ := henters middle.memory
  obtain ⟨final, hfinal, hlast⟩ := hcallable 1 middle.memory second honce hsecond
  have htwice := honce.another hsecond hfinal hlast
  exact ⟨code, hcode, hlength, hrepeatable, final.memory, htwice,
    (hmemory 2 final.memory (by decide) htwice).1⟩

end ChannelConcat
