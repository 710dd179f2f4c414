import ChannelConcat.Proofs.BlockMove

/-!
# The last block at an address

The blocks of all inputs are stored one after the other, at cursors that may overlap, stand still,
go back or leave gaps. Where no block is stored over a source, each byte is in the end that of the
last block that was stored over it, whatever was there before. Main definition:
`BlockMove.LastStore`. Main statement: `BlockMove.LastStore.memory_copyInputs`.
-/

namespace ChannelConcat

open X86

namespace BlockMove

/-- Block `k` is the last of a number of blocks behind a cursor that covers an address. -/
structure LastStore (move : BlockMove) (target : Address) (total k : Nat) (a : Address) :
    Prop where
  lt : k < total
  contains : (move.region target k).Contains a
  last : ∀ later < total, k < later → ¬ (move.region target later).Contains a

/-- The source cursors of the blocks of all inputs in turn. -/
def cursors (move : BlockMove) (entries : List TableEntry) : List Address :=
  entries.flatMap fun entry =>
    (List.range (repeats entry.count)).map fun k => (move.region entry.source k).start

/-- Move the blocks at the given source cursors in turn. -/
def copyAll (move : BlockMove) (cursors : List Address) (progress : Progress) : Progress :=
  cursors.foldl (fun progress source => move.copyBlock source progress) progress

variable {move : BlockMove} {progress : Progress} {target a : Address} {total k : Nat}

/-! ## Blocks at an address -/

/-- Of the blocks that cover an address one is the last. -/
theorem exists_lastStore (h : ∃ k < total, (move.region target k).Contains a) :
    ∃ k, move.LastStore target total k a := by
  induction total with
  | zero =>
      obtain ⟨k, hk, -⟩ := h
      exact absurd hk (Nat.not_lt_zero k)
  | succ total ih =>
      by_cases hlast : (move.region target total).Contains a
      · exact ⟨total, Nat.lt_succ_self total, hlast, fun later hlater hlt => by omega⟩
      · obtain ⟨k, hk, hcontains⟩ := h
        have hne : k ≠ total := by
          rintro rfl
          exact hlast hcontains
        obtain ⟨k, hstore⟩ := ih ⟨k, by omega, hcontains⟩
        refine ⟨k, Nat.lt_succ_of_lt hstore.lt, hstore.contains, ?_⟩
        intro later hlater hlt
        rcases Nat.lt_succ_iff_lt_or_eq.1 hlater with hbefore | rfl
        · exact hstore.last later hbefore hlt
        · exact hlast

/-- The last block that covers an address, counted from the second block on. -/
theorem LastStore.of_succ (h : move.LastStore target (total + 1) (k + 1) a) :
    move.LastStore (target + move.stride) total k a := by
  refine ⟨Nat.lt_of_succ_lt_succ h.lt, ?_, ?_⟩
  · rw [region_succ]
    exact h.contains
  · intro later hlater hlt
    rw [region_succ]
    exact h.last (later + 1) (Nat.succ_lt_succ hlater) (Nat.succ_lt_succ hlt)

/-- A stored block leaves its bytes at its place. -/
theorem getElem?_of_contains (memory : Memory) {bytes : List Byte}
    (h : Region.Contains ⟨target, bytes.length⟩ a) :
    bytes[(a - target).toNat]? = some (memory.store target bytes a) := by
  rw [Memory.store, List.getElem?_eq_getElem h, Option.getD_some]

/-! ## Copies block by block -/

/-- There is a source cursor for every block. -/
theorem length_cursors (move : BlockMove) (entries : List TableEntry) :
    (move.cursors entries).length = blockTotal entries := by
  simp [cursors, blockTotal, List.length_flatMap]

/-- The source cursors are those of the blocks of each input. -/
theorem forall_mem_cursors {entries : List TableEntry} {p : Address → Prop} :
    (∀ source ∈ move.cursors entries, p source) ↔
      ∀ entry ∈ entries, ∀ k < repeats entry.count, p (move.region entry.source k).start := by
  simp only [cursors, List.forall_mem_flatMap, List.forall_mem_map, List.mem_range]

/-- The blocks of an input are moved one by one. -/
theorem copyInput_eq_copyAll (count : Nat) (source : Address) (progress : Progress) :
    move.copyInput count source progress =
      move.copyAll ((List.range count).map fun k => (move.region source k).start) progress := by
  induction count generalizing source progress with
  | zero => rfl
  | succ count ih =>
      have hnext : (List.range count).map (fun k => (move.region (source + move.stride) k).start) =
          (List.range count).map fun k => (move.region source (k + 1)).start :=
        List.map_congr_left fun k _ => by rw [region_succ]
      rw [copyInput, ih, hnext, List.range_succ_eq_map, List.map_cons, List.map_map, region_zero]
      rfl

/-- The blocks of all inputs are moved one by one. -/
theorem copyInputs_eq_copyAll (entries : List TableEntry) (progress : Progress) :
    move.copyInputs entries progress = move.copyAll (move.cursors entries) progress := by
  induction entries generalizing progress with
  | nil => rfl
  | cons entry entries ih =>
      rw [copyInputs, ih, copyInput_eq_copyAll, cursors, cursors, List.flatMap_cons, copyAll,
        copyAll, copyAll, List.foldl_append]

/-- Moving blocks changes no byte outside their places at the target. -/
theorem copyAll_of_not_contains (hlength : move.KeepsLength) {cursors : List Address}
    (h : ∀ k < cursors.length, ¬ (move.region progress.target k).Contains a) :
    (move.copyAll cursors progress).memory a = progress.memory a := by
  induction cursors generalizing progress with
  | nil => rfl
  | cons source cursors ih =>
      have hrest : ∀ k < cursors.length,
          ¬ (move.region (move.copyBlock source progress).target k).Contains a := by
        intro k hk
        rw [copyBlock, region_succ]
        exact h (k + 1) (Nat.succ_lt_succ hk)
      refine (ih hrest).trans (Memory.store_of_not_contains ?_)
      rw [hlength _ (Memory.length_load ..)]
      simpa using h 0 (Nat.succ_pos _)

/-- Each byte is that of the last block over it, as its source was before the copy. -/
theorem LastStore.memory_copyAll (hlength : move.KeepsLength) (memory : Memory)
    {cursors : List Address} {source : Address} (h : move.LastStore target cursors.length k a)
    (hsource : cursors[k]? = some source)
    (havoids : ∀ source ∈ cursors, move.Avoids target cursors.length ⟨source, move.bytes⟩) :
    (move.change (memory.load source move.bytes))[(a - (move.region target k).start).toNat]? =
      some ((move.copyAll cursors ⟨target, memory⟩).memory a) := by
  induction cursors generalizing target memory k with
  | nil => cases hsource
  | cons first cursors ih =>
      cases k with
      | zero =>
          -- No later block covers the address, so the first block is still there in the end.
          cases hsource
          have hrest : ∀ k < cursors.length,
              ¬ (move.region (move.copyBlock source ⟨target, memory⟩).target k).Contains a := by
            intro k hk
            rw [copyBlock, region_succ]
            exact h.last (k + 1) (Nat.succ_lt_succ hk) (Nat.succ_pos k)
          have hcontains := h.contains
          rw [region_zero, ← hlength _ (Memory.length_load memory source move.bytes)] at hcontains
          rw [region_zero]
          exact (getElem?_of_contains memory hcontains).trans
            (congrArg some (copyAll_of_not_contains hlength hrest).symm)
      | succ k =>
          -- The first block is not stored over the source of a later one.
          rw [List.getElem?_cons_succ] at hsource
          have hload : (move.copyBlock first ⟨target, memory⟩).memory.load source move.bytes =
              memory.load source move.bytes := by
            have hdisjoint := havoids source (.tail _ (List.mem_of_getElem? hsource)) 0
              (Nat.succ_pos _)
            rw [region_zero] at hdisjoint
            refine Memory.load_store_of_disjoint fun b hb hstored => ?_
            rw [hlength _ (Memory.length_load ..)] at hstored
            exact hdisjoint b hstored hb
          rw [← hload, ← region_succ]
          refine ih _ h.of_succ hsource ?_
          intro later hlater j hj
          rw [region_succ]
          exact havoids later (.tail _ hlater) (j + 1) (Nat.succ_lt_succ hj)

/-- In a copy of the blocks of all inputs, each byte is that of the last block over it. -/
theorem LastStore.memory_copyInputs (hlength : move.KeepsLength) (memory : Memory)
    {entries : List TableEntry} {source : Address}
    (h : move.LastStore target (blockTotal entries) k a)
    (hsource : (move.cursors entries)[k]? = some source)
    (havoids : ∀ source ∈ move.cursors entries,
      move.Avoids target (blockTotal entries) ⟨source, move.bytes⟩) :
    (move.change (memory.load source move.bytes))[(a - (move.region target k).start).toNat]? =
      some ((move.copyInputs entries ⟨target, memory⟩).memory a) := by
  rw [← length_cursors move entries] at h havoids
  rw [copyInputs_eq_copyAll]
  exact h.memory_copyAll hlength memory hsource havoids

end BlockMove

end ChannelConcat
