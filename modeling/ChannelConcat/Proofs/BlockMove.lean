import ChannelConcat.Program
import ChannelConcat.Proofs.Lanes
import ChannelConcat.Proofs.X86.Accesses
import ChannelConcat.Transfer
import ChannelConcat.X86.Step

/-!
# Copying blocks in memory

What a copy routine does to memory, as two loops: for each input in turn, a number of blocks is
loaded at a source cursor, changed, and stored at the target cursor, and both cursors advance by the
stride. Main definitions: `BlockMove.copyInputs`, `BlockMove.inputAccesses`, `Spec.blockMove`. Main
statements: `copyInputs_of_not_contains` says what stays as it was, and `AgreeOutside.copyInputs`
that bytes which are not read do not matter.
-/

namespace ChannelConcat

open X86

/-- How one block is moved. -/
structure BlockMove where
  /-- The number of bytes that are loaded. -/
  bytes : Nat
  /-- What the bytes become before they are stored. -/
  change : List Byte → List Byte
  /-- The distance by which both cursors advance. -/
  stride : Address

/-- The target cursor and the memory in the course of a copy. -/
structure Progress where
  target : Address
  memory : Memory

/-- An input as the tables of a call describe it: the address of its source and the word that counts
its blocks. -/
structure TableEntry where
  source : Address
  count : BitVec 32
  deriving DecidableEq

namespace BlockMove

/-- Move one block from the source cursor to the target cursor. -/
def copyBlock (move : BlockMove) (source : Address) (progress : Progress) : Progress where
  target := progress.target + move.stride
  memory := progress.memory.store progress.target
    (move.change (progress.memory.load source move.bytes))

/-- Move a number of blocks, the first of them from the source cursor. -/
def copyInput (move : BlockMove) : Nat → Address → Progress → Progress
  | 0, _, progress => progress
  | count + 1, source, progress =>
      move.copyInput count (source + move.stride) (move.copyBlock source progress)

/-- Move the blocks of all inputs in turn; an input whose count is not positive has none. -/
def copyInputs (move : BlockMove) : List TableEntry → Progress → Progress
  | [], progress => progress
  | entry :: entries, progress =>
      move.copyInputs entries (move.copyInput (repeats entry.count) entry.source progress)

/-- The accesses for a number of blocks of an input: each is loaded at the source cursor and stored
at the target cursor. -/
def blockAccesses (move : BlockMove) (input : Nat) : Nat → Address → Address → List Access
  | 0, _, _ => []
  | count + 1, source, target =>
      ⟨.load, input, ⟨source, move.bytes⟩⟩ :: ⟨.store, input, ⟨target, move.bytes⟩⟩ ::
        move.blockAccesses input count (source + move.stride) (target + move.stride)

/-- The accesses for the blocks of all inputs in turn; the inputs are numbered from a first one
on. -/
def inputAccesses (move : BlockMove) : Nat → List TableEntry → Address → List Access
  | _, [], _ => []
  | first, entry :: entries, target =>
      move.blockAccesses first (repeats entry.count) entry.source target ++
        move.inputAccesses (first + 1) entries
          (target + BitVec.ofNat 64 (repeats entry.count) * move.stride)

/-- The number of blocks of all inputs. -/
def blockTotal (entries : List TableEntry) : Nat :=
  (entries.map fun entry => repeats entry.count).sum

/-- The region that block `k` behind a cursor covers. -/
def region (move : BlockMove) (cursor : Address) (k : Nat) : Region :=
  ⟨cursor + BitVec.ofNat 64 k * move.stride, move.bytes⟩

/-- None of the first blocks behind a cursor has an address in common with a region. -/
def Avoids (move : BlockMove) (cursor : Address) (count : Nat) (other : Region) : Prop :=
  ∀ k < count, (move.region cursor k).Disjoint other

/-- A block is stored with as many bytes as were loaded. -/
def KeepsLength (move : BlockMove) : Prop :=
  ∀ block, block.length = move.bytes → (move.change block).length = move.bytes

@[simp] theorem region_zero (move : BlockMove) (cursor : Address) :
    move.region cursor 0 = ⟨cursor, move.bytes⟩ := by
  simp [region]

/-- The blocks behind an advanced cursor are the later blocks. -/
theorem region_add (move : BlockMove) (cursor : Address) (first k : Nat) :
    move.region (cursor + BitVec.ofNat 64 first * move.stride) k =
      move.region cursor (first + k) := by
  simp only [region, BitVec.ofNat_add, BitVec.add_mul, BitVec.add_assoc]

/-- The blocks behind the next cursor are the later blocks. -/
theorem region_succ (move : BlockMove) (cursor : Address) (k : Nat) :
    move.region (cursor + move.stride) k = move.region cursor (k + 1) := by
  have := region_add move cursor 1 k
  rwa [BitVec.one_mul, Nat.add_comm] at this

variable {move : BlockMove} {progress : Progress} {cursor : Address} {count more : Nat}
  {other : Region}

/-- The first blocks that avoid a region. -/
theorem Avoids.left (h : move.Avoids cursor (count + more) other) :
    move.Avoids cursor count other :=
  fun k hk => h k (Nat.lt_add_right _ hk)

/-- The later blocks that avoid a region. -/
theorem Avoids.right (h : move.Avoids cursor (count + more) other) :
    move.Avoids (cursor + BitVec.ofNat 64 count * move.stride) more other := by
  intro k hk
  rw [region_add]
  exact h _ (Nat.add_lt_add_left hk _)

/-- Blocks that avoid a region avoid every part of it. -/
theorem Avoids.part {start : Address} {total : Nat} (offset bytes : Nat)
    (h : move.Avoids cursor count ⟨start, total⟩) (htotal : offset + bytes ≤ total)
    (hsize : total ≤ 2 ^ 64) :
    move.Avoids cursor count ⟨start + BitVec.ofNat 64 offset, bytes⟩ :=
  fun k hk a ha hcontains =>
    h k hk a ha (Region.contains_of_contains_add offset hcontains htotal hsize)

/-- Each block advances the target cursor by the stride. -/
theorem target_copyInput (count : Nat) (source : Address) (progress : Progress) :
    (move.copyInput count source progress).target =
      progress.target + BitVec.ofNat 64 count * move.stride := by
  induction count generalizing source progress with
  | zero => simp [copyInput]
  | succ count ih =>
      rw [copyInput, ih, copyBlock, BitVec.add_assoc, Nat.add_comm count, BitVec.ofNat_add,
        BitVec.add_mul, BitVec.one_mul]

/-! ## What a copy leaves as it was -/

/-- Moving the blocks of an input changes no byte outside their places at the target. -/
theorem copyInput_of_not_contains (hlength : move.KeepsLength) {count : Nat} {a : Address}
    (source : Address) (h : ∀ k < count, ¬ (move.region progress.target k).Contains a) :
    (move.copyInput count source progress).memory a = progress.memory a := by
  induction count generalizing source progress with
  | zero => rfl
  | succ count ih =>
      rw [copyInput, ih]
      · refine Memory.store_of_not_contains ?_
        rw [hlength _ (Memory.length_load ..)]
        simpa using h 0 (Nat.succ_pos count)
      · intro k hk
        rw [copyBlock, region_succ]
        exact h (k + 1) (Nat.succ_lt_succ hk)

/-- Moving the blocks of all inputs changes no byte outside their places at the target. -/
theorem copyInputs_of_not_contains (hlength : move.KeepsLength) {entries : List TableEntry}
    {a : Address} (h : ∀ k < blockTotal entries, ¬ (move.region progress.target k).Contains a) :
    (move.copyInputs entries progress).memory a = progress.memory a := by
  induction entries generalizing progress with
  | nil => rfl
  | cons entry entries ih =>
      simp only [blockTotal, List.map_cons, List.sum_cons] at h ih
      rw [copyInputs, ih, copyInput_of_not_contains hlength]
      · exact fun k hk => h k (Nat.lt_add_right _ hk)
      · intro k hk
        rw [target_copyInput, region_add]
        exact h _ (Nat.add_lt_add_left hk _)

/-! ## What a copy does not read -/

/-- Two stages of a copy whose memories differ inside a region at most. -/
structure AgreeOutside (slot : Region) (first second : Progress) : Prop where
  target : first.target = second.target
  memory : ∀ a, ¬ slot.Contains a → first.memory a = second.memory a

variable {slot : Region} {first second : Progress}

/-- A block that is loaded outside the region is stored alike. -/
theorem AgreeOutside.copyBlock (h : AgreeOutside slot first second) {source : Address}
    (hread : Region.Disjoint ⟨source, move.bytes⟩ slot) :
    AgreeOutside slot (move.copyBlock source first) (move.copyBlock source second) := by
  have hload : first.memory.load source move.bytes = second.memory.load source move.bytes :=
    Memory.load_congr fun a ha => h.memory a (hread a ha)
  refine ⟨by rw [BlockMove.copyBlock, h.target]; rfl, ?_⟩
  intro a ha
  simp only [BlockMove.copyBlock, hload, h.target]
  exact Memory.store_congr (h.memory a ha)

/-- Blocks that are loaded outside the region are stored alike. -/
theorem AgreeOutside.copyInput (h : AgreeOutside slot first second) {count : Nat}
    {source : Address} (hread : move.Avoids source count slot) :
    AgreeOutside slot (move.copyInput count source first)
      (move.copyInput count source second) := by
  induction count generalizing source first second with
  | zero => exact h
  | succ count ih =>
      refine ih (h.copyBlock (by simpa using hread 0 (Nat.succ_pos count))) fun k hk => ?_
      rw [region_succ]
      exact hread (k + 1) (Nat.succ_lt_succ hk)

/-- Inputs whose blocks are all loaded outside the region are stored alike. -/
theorem AgreeOutside.copyInputs (h : AgreeOutside slot first second) {entries : List TableEntry}
    (hread : ∀ entry ∈ entries, move.Avoids entry.source (repeats entry.count) slot) :
    AgreeOutside slot (move.copyInputs entries first) (move.copyInputs entries second) := by
  induction entries generalizing first second with
  | nil => exact h
  | cons entry entries ih =>
      exact ih (h.copyInput (hread entry List.mem_cons_self))
        fun later hlater => hread later (List.mem_cons_of_mem _ hlater)

end BlockMove

/-! ## Tables in memory -/

/-- The memory holds the given inputs as consecutive entries of the table of sources, eight bytes
each, and of the table of block counts, four bytes each. -/
def Tables (memory : Memory) (sources counts : Address) : List TableEntry → Prop
  | [] => True
  | entry :: entries =>
      memory.loadAddress sources = entry.source ∧
      Word.ofBytes 4 (memory.load counts 4) = entry.count ∧
      Tables memory (sources + 8) (counts + 4) entries

/-- Tables that a memory holds are held by every memory with the same bytes there. -/
theorem Tables.congr {memory other : Memory} {sources counts : Address}
    {entries : List TableEntry} (h : Tables memory sources counts entries)
    (hsize : 8 * entries.length ≤ 2 ^ 64)
    (hsources : ∀ a, Region.Contains ⟨sources, 8 * entries.length⟩ a → memory a = other a)
    (hcounts : ∀ a, Region.Contains ⟨counts, 4 * entries.length⟩ a → memory a = other a) :
    Tables other sources counts entries := by
  induction entries generalizing sources counts with
  | nil => trivial
  | cons entry entries ih =>
      obtain ⟨hsource, hcount, hrest⟩ := h
      rw [List.length_cons] at hsize hsources hcounts
      have hfirst : memory.load sources 8 = other.load sources 8 :=
        Memory.load_congr fun a ha => hsources a (Region.contains_of_le ha (by omega))
      have hsecond : memory.load counts 4 = other.load counts 4 :=
        Memory.load_congr fun a ha => hcounts a (Region.contains_of_le ha (by omega))
      refine ⟨?_, by rw [← hsecond, hcount], ih hrest (by omega) ?_ ?_⟩
      · rw [← hsource, Memory.loadAddress, Memory.loadAddress, hfirst]
      · intro a ha
        exact hsources a (Region.contains_of_contains_add 8 ha (by omega) hsize)
      · intro a ha
        exact hcounts a (Region.contains_of_contains_add 4 ha (by omega) (by omega))

/-- The first entries of tables that a memory holds. -/
theorem Tables.take {memory : Memory} {sources counts : Address} {entries : List TableEntry}
    (h : Tables memory sources counts entries) (n : Nat) :
    Tables memory sources counts (entries.take n) := by
  induction n generalizing sources counts entries with
  | zero => trivial
  | succ n ih =>
      cases entries with
      | nil => trivial
      | cons entry entries => exact ⟨h.1, h.2.1, ih h.2.2⟩

/-- Tables that no moved block touches are held after the blocks of an input were moved. -/
theorem Tables.copyInput {move : BlockMove} (progress : Progress) {sources counts : Address}
    {entries : List TableEntry} (h : Tables progress.memory sources counts entries)
    (hlength : move.KeepsLength) (hsize : 8 * entries.length ≤ 2 ^ 64) {count : Nat}
    (source : Address) (hsources : move.Avoids progress.target count ⟨sources, 8 * entries.length⟩)
    (hcounts : move.Avoids progress.target count ⟨counts, 4 * entries.length⟩) :
    Tables (move.copyInput count source progress).memory sources counts entries := by
  refine h.congr hsize ?_ ?_
  · intro a ha
    exact (BlockMove.copyInput_of_not_contains hlength source
      fun k hk hwrite => hsources k hk a hwrite ha).symm
  · intro a ha
    exact (BlockMove.copyInput_of_not_contains hlength source
      fun k hk hwrite => hcounts k hk a hwrite ha).symm

/-! ## The blocks of a specification -/

namespace Spec

/-- The number of inputs that a routine works on: the number of inputs as a signed word. -/
def rounds (spec : Spec) : Nat :=
  repeats (BitVec.ofNat 32 spec.inputs)

/-- What a block becomes on its way: the maximum with zero in each lane of the element type, if the
specification asks for it. -/
def onBlock (spec : Spec) (block : List Byte) : List Byte :=
  match spec.relu, Clamp.ofElem spec.elem with
  | true, .ok clamp => clamp.apply (List.replicate block.length 0) block
  | _, _ => block

/-- How the routine of a specification moves one block: a whole vector, and a stride that is the
size of a block reduced to a signed word. -/
def blockMove (spec : Spec) : BlockMove where
  bytes := spec.bits / 8
  change := spec.onBlock
  stride := (BitVec.ofNat 32 (spec.block * spec.elemBytes)).signExtend 64

/-- The loops of a routine are bounded by the number of inputs and the size of a block. -/
theorem bounds_of_loopBounds {spec : Spec} {bounds : LoopBounds}
    (h : spec.loopBounds = .ok bounds) :
    bounds.inputs = BitVec.ofNat 32 spec.inputs ∧
      (spec.rounds ≠ 0 → bounds.stride = BitVec.ofNat 32 (spec.block * spec.elemBytes)) := by
  simp only [loopBounds] at h
  split at h
  · cases hstride : spec.blockBytes with
    | error fault => simp [hstride, Except.map] at h
    | ok stride =>
        obtain ⟨hproduct, -⟩ := Size.mul_eq_ok_iff.1 hstride
        simp only [hstride, Except.map, Except.ok.injEq] at h
        rw [← h, hproduct]
        exact ⟨rfl, fun _ => rfl⟩
  · rename_i hnone
    cases h
    exact ⟨rfl, fun hrounds => absurd (Int.toNat_of_nonpos (Int.not_lt.1 hnone)) hrounds⟩

/-- The selected instructions change a block as the specification asks for. -/
theorem onBlock_of_select {spec : Spec} {selection : Selection}
    (h : select spec.bits spec.elem spec.relu = .ok selection) :
    spec.onBlock = selection.onBlock := by
  funext block
  obtain ⟨-, hclamp⟩ := select_eq_ok_iff.1 h
  unfold onBlock Selection.onBlock
  cases hrelu : spec.relu with
  | false =>
      rw [hrelu, if_neg Bool.false_ne_true] at hclamp
      rw [hclamp]
  | true =>
      rw [hrelu, if_pos rfl] at hclamp
      obtain ⟨clamp, helem, hclamp⟩ := hclamp
      rw [helem, hclamp]

end Spec

/-- How selected instructions move one block, given the stride as a signed word. -/
def Selection.blockMove (selection : Selection) (stride : BitVec 32) : BlockMove where
  bytes := selection.width.bytes
  change := selection.onBlock
  stride := stride.signExtend 64

/-- A routine stores as many bytes of a block as it loads. -/
theorem Selection.blockMove_keepsLength (selection : Selection) (stride : BitVec 32) :
    (selection.blockMove stride).KeepsLength := by
  intro block hlength
  rw [← hlength]
  exact selection.length_onBlock (hlength ▸ selection.width.four_dvd_bytes)

/-- The routine of a specification moves a vector of the selected width at a time. -/
theorem Spec.bytes_blockMove_of_select {spec : Spec} {selection : Selection}
    (h : select spec.bits spec.elem spec.relu = .ok selection) :
    spec.blockMove.bytes = selection.width.bytes := by
  show spec.bits / 8 = _
  rw [(select_eq_ok_iff.1 h).1, VectorWidth.bits, Nat.mul_div_cancel_left _ (by decide)]

/-- The routine of a specification stores as many bytes of a block as it loads. -/
theorem Spec.blockMove_keepsLength {spec : Spec} {selection : Selection}
    (h : select spec.bits spec.elem spec.relu = .ok selection) : spec.blockMove.KeepsLength := by
  intro block hlength
  show (spec.onBlock block).length = _
  rw [bytes_blockMove_of_select h] at hlength ⊢
  rw [onBlock_of_select h]
  exact selection.blockMove_keepsLength 0 block hlength

/-- The instructions of a routine with inputs move the blocks of its specification. -/
theorem Spec.blockMove_eq {spec : Spec} {selection : Selection} {bounds : LoopBounds}
    (hselect : select spec.bits spec.elem spec.relu = .ok selection)
    (hbounds : spec.loopBounds = .ok bounds) (hrounds : spec.rounds ≠ 0) :
    spec.blockMove = selection.blockMove bounds.stride := by
  obtain ⟨hbits, -⟩ := select_eq_ok_iff.1 hselect
  rw [blockMove, onBlock_of_select hselect, Selection.blockMove,
    (bounds_of_loopBounds hbounds).2 hrounds, hbits, VectorWidth.bits,
    Nat.mul_div_cancel_left _ (by decide)]

end ChannelConcat
