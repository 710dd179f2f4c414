import ChannelConcat.Call
import ChannelConcat.Proofs.Calls

/-!
# Calls in windows of memory

A call that is laid out in windows of memory, one for each of its buffers, meets what a routine
relies on, as long as every buffer fits its window. Main statements: `Call.atCall`,
`Routine.Makes.exists_run`.
-/

namespace ChannelConcat

open X86

/-- Entries that lie side by side in memory are the entries of tables. -/
theorem Tables.of_load {memory : Memory} {sources counts : Address} {entries : List TableEntry}
    (hsources : memory.load sources (8 * entries.length) =
      entries.flatMap fun entry => Word.toBytes 8 entry.source)
    (hcounts : memory.load counts (4 * entries.length) =
      entries.flatMap fun entry => Word.toBytes 4 entry.count) :
    Tables memory sources counts entries := by
  induction entries generalizing sources counts with
  | nil => trivial
  | cons entry entries ih =>
      rw [List.length_cons, Nat.mul_succ, Nat.add_comm, Memory.load_add, List.flatMap_cons]
        at hsources hcounts
      obtain ⟨hsource, hsources⟩ := List.append_inj hsources (by simp)
      obtain ⟨hcount, hcounts⟩ := List.append_inj hcounts (by simp)
      refine ⟨?_, by rw [hcount, Word.ofBytes_toBytes], ih hsources hcounts⟩
      rw [Memory.loadAddress, hsource, Word.ofBytes_toBytes]

namespace Call

/-- Every buffer of the call fits its window, and there is a window and a block count for each
source. -/
structure Fits (call : Call) : Prop where
  counts : call.counts.length = call.sources.length
  inputs : call.sources.length < 2 ^ 20
  sources : ∀ source ∈ call.sources, source.size ≤ windowBytes
  target : call.target.size ≤ windowBytes

/-- The inputs of the call: the table entry of each, and the bytes of its source. -/
def inputs (call : Call) : List (TableEntry × List Byte) :=
  (call.counts.zip call.sources).zipIdx.map fun entry =>
    (⟨(Window.source entry.2).address, entry.1.1⟩, entry.1.2.toList)

/-- A window starts at its place. -/
theorem Window.toNat_address {window : Window} (h : window.number < 2 ^ 24) :
    window.address.toNat = window.number * windowBytes := by
  rw [address, BitVec.toNat_ofNat]
  have hlt := Nat.mul_lt_mul_of_pos_right h (show 0 < windowBytes by decide)
  exact Nat.mod_eq_of_lt (Nat.lt_of_lt_of_le hlt (by decide))

/-- The addresses inside a window are those that lead to its place. -/
theorem Window.contains_iff {window : Window} (h : window.number < 2 ^ 24) {a : Address} :
    Region.Contains ⟨window.address, windowBytes⟩ a ↔ a.toNat / windowBytes = window.number := by
  have hstart := Window.toNat_address h
  have ha := a.isLt
  have hbytes : windowBytes = 1099511627776 := rfl
  show (a - window.address).toNat < windowBytes ↔ _
  -- The last window ends where the addresses do, so no window wraps around.
  rw [BitVec.toNat_sub, hstart, hbytes]
  omega

/-- Two windows have no address in common. -/
theorem Window.disjoint {first second : Window} (hne : first.number ≠ second.number)
    (hfirst : first.number < 2 ^ 24) (hsecond : second.number < 2 ^ 24) :
    Region.Disjoint ⟨first.address, windowBytes⟩ ⟨second.address, windowBytes⟩ := by
  intro a ha hcontains
  rw [Window.contains_iff hfirst] at ha
  rw [Window.contains_iff hsecond] at hcontains
  exact hne (ha.symm.trans hcontains)

/-- The slot for the frame pointer lies in the window of the stack. -/
theorem slot_contains {call : Call} {a : Address} (h : call.entryState.slot.Contains a) :
    Region.Contains ⟨Window.stack.address, windowBytes⟩ a := by
  have hstart : registers.rsp - 8 =
      Window.stack.address + BitVec.ofNat 64 (windowBytes / 2 - 8) := by decide +kernel
  have hslot : Region.Contains ⟨registers.rsp - 8, 8⟩ a := h
  rw [hstart] at hslot
  exact Region.contains_of_contains_add _ hslot (by decide) (by decide)

/-- A window holds the buffer that it is set aside for. -/
theorem load_address {call : Call} (window : Window) {bytes : Array Byte}
    (hwindow : window.number < 2 ^ 24) (hbytes : call.contents.getD window.number #[] = bytes)
    (hsize : bytes.size ≤ windowBytes) :
    call.memory.load window.address bytes.size = bytes.toList := by
  apply List.ext_getElem (by rw [Memory.length_load, Array.length_toList])
  intro k hk hk'
  rw [Memory.length_load] at hk
  have haddress : (window.address + BitVec.ofNat 64 k).toNat = window.number * windowBytes + k := by
    have hlimit : windowBytes = 1099511627776 := rfl
    rw [hlimit] at hsize ⊢
    rw [BitVec.toNat_add, Window.toNat_address hwindow, BitVec.toNat_ofNat, hlimit]
    omega
  have hpos : 0 < windowBytes := by decide
  have hlt : k < windowBytes := Nat.lt_of_lt_of_le hk hsize
  simp only [Memory.load, List.getElem_map, List.getElem_range, Array.getElem_toList, memory,
    haddress]
  rw [Nat.mul_comm, Nat.mul_add_div hpos, Nat.div_eq_of_lt hlt, Nat.add_zero, Nat.mul_add_mod,
    Nat.mod_eq_of_lt hlt, hbytes, Array.getD_eq_getD_getElem?, Array.getElem?_eq_getElem hk]
  rfl

/-- The first windows are set aside for what is no source. -/
theorem contents_of_lt {call : Call} {number : Nat} (h : number < 6) :
    call.contents.getD number #[] =
      #[#[], descriptor.bytes.toArray, call.sourceTable.toArray, call.countTable.toArray,
        call.target, #[]].getD number #[] := by
  rw [contents, Array.getD_eq_getD_getElem?, Array.getElem?_append_left (by exact h),
    Array.getD_eq_getD_getElem?]

/-- The window of a source is set aside for it. -/
theorem contents_source {call : Call} {i : Nat} (hi : i < call.sources.length) :
    call.contents.getD (Window.source i).number #[] = call.sources[i] := by
  rw [contents, Window.number, Array.getD_eq_getD_getElem?, Array.getElem?_append_right (by simp)]
  simp [hi]

variable {call : Call}

/-- Each input of a call is one of its sources with the address of its window. -/
theorem exists_of_mem_inputs {input : TableEntry × List Byte}
    (hinput : input ∈ call.inputs) :
    ∃ i, ∃ hi : i < call.sources.length, input.1.source = (Window.source i).address ∧
      input.2 = call.sources[i].toList := by
  obtain ⟨entry, hentry, rfl⟩ := List.mem_map.1 hinput
  obtain ⟨-, hsource⟩ := List.getElem?_zip_eq_some.1 (List.mem_zipIdx_iff_getElem?.1 hentry)
  obtain ⟨hi, hsource⟩ := List.getElem?_eq_some_iff.1 hsource
  exact ⟨entry.2, hi, rfl, congrArg Array.toList hsource.symm⟩

/-- There are as many inputs as sources. -/
theorem length_inputs (h : call.Fits) : call.inputs.length = call.sources.length := by
  rw [inputs, List.length_map, List.length_zipIdx, List.length_zip, h.counts, Nat.min_self]

/-- The table of sources has the addresses of the inputs. -/
theorem sourceTable_eq (h : call.Fits) :
    call.sourceTable =
      (call.inputs.map Prod.fst).flatMap fun entry => Word.toBytes 8 entry.source := by
  have hnumbers : (call.counts.zip call.sources).zipIdx.map Prod.snd =
      List.range call.sources.length := by
    rw [List.zipIdx_map_snd, List.length_zip, h.counts, Nat.min_self, List.range_eq_range']
  rw [sourceTable, ← hnumbers, List.flatMap_map, List.flatMap_map, inputs, List.flatMap_map]

/-- The table of block counts has the counts of the inputs. -/
theorem countTable_eq (h : call.Fits) :
    call.countTable =
      (call.inputs.map Prod.fst).flatMap fun entry => Word.toBytes 4 entry.count := by
  have hcounts : ((call.counts.zip call.sources).zipIdx.map Prod.fst).map Prod.fst =
      call.counts := by
    rw [List.zipIdx_map_fst, List.map_fst_zip (Nat.le_of_eq h.counts)]
  rw [countTable, ← hcounts, List.map_map, List.flatMap_map, List.flatMap_map, inputs,
    List.flatMap_map]
  rfl

/-- The tables of a call have an entry for each input. -/
theorem tables (h : call.Fits) :
    Tables call.memory descriptor.sources descriptor.counts (call.inputs.map Prod.fst) := by
  have hlimit : windowBytes = 1099511627776 := rfl
  have hlength := length_inputs h
  have hinputs := h.inputs
  have hsources : call.sourceTable.toArray.size = 8 * (call.inputs.map Prod.fst).length := by
    rw [List.size_toArray, sourceTable_eq h, length_flatMap_rows fun entry _ =>
      Word.length_toBytes 8 entry.source, Nat.mul_comm]
  have hcounts : call.countTable.toArray.size = 4 * (call.inputs.map Prod.fst).length := by
    rw [List.size_toArray, countTable_eq h, length_flatMap_rows fun entry _ =>
      Word.length_toBytes 4 entry.count, Nat.mul_comm]
  rw [List.length_map] at hsources hcounts
  apply Tables.of_load
  · rw [← sourceTable_eq h, List.length_map, ← hsources]
    exact load_address .sourceTable (by decide) (contents_of_lt (by decide)) (by omega)
  · rw [← countTable_eq h, List.length_map, ← hcounts]
    exact load_address .countTable (by decide) (contents_of_lt (by decide)) (by omega)

/-- What a call reads lies in windows that are neither for the target nor for the stack. -/
theorem exists_window_of_mem_readRegions (h : call.Fits) {region : Region}
    (hregion : region ∈ readRegions call.entryState descriptor call.inputs) :
    ∃ window : Window, window.number < 2 ^ 24 ∧ window.number ≠ Window.target.number ∧
      window.number ≠ Window.stack.number ∧ region.start = window.address ∧
        region.bytes ≤ windowBytes := by
  have hlimit : windowBytes = 1099511627776 := rfl
  have hlength := length_inputs h
  have hinputs := h.inputs
  simp only [readRegions, List.mem_cons, List.mem_map] at hregion
  rcases hregion with rfl | rfl | rfl | ⟨input, hinput, rfl⟩
  · exact ⟨.descriptor, by decide, by decide, by decide, rfl, show 24 ≤ windowBytes by decide⟩
  · refine ⟨.sourceTable, by decide, by decide, by decide, rfl, ?_⟩
    show 8 * call.inputs.length ≤ windowBytes
    omega
  · refine ⟨.countTable, by decide, by decide, by decide, rfl, ?_⟩
    show 4 * call.inputs.length ≤ windowBytes
    omega
  · obtain ⟨i, hi, hsource, hbytes⟩ := exists_of_mem_inputs hinput
    refine ⟨.source i, ?_, ?_, ?_, hsource, ?_⟩
    · show 6 + i < 2 ^ 24
      omega
    · show 6 + i ≠ 4
      omega
    · show 6 + i ≠ 5
      omega
    · show input.2.length ≤ windowBytes
      rw [hbytes, Array.length_toList]
      exact h.sources _ (List.getElem_mem hi)

/-- A call whose buffers fit their windows meets what a routine relies on. -/
theorem atCall (h : call.Fits) :
    AtCall call.entryState descriptor call.inputs call.target.size := by
  have htarget (a : Address) (ha : Region.Contains ⟨descriptor.target, call.target.size⟩ a) :
      Region.Contains ⟨Window.target.address, windowBytes⟩ a :=
    Region.contains_of_le ha h.target
  refine ⟨⟨rfl, ?_, tables h⟩, ?_, ?_, ?_, ?_⟩
  · exact load_address .descriptor (by decide) (contents_of_lt (by decide))
      (show 24 ≤ windowBytes by decide)
  · intro input hinput
    obtain ⟨i, hi, hsource, hbytes⟩ := exists_of_mem_inputs hinput
    have hinputs := h.inputs
    rw [hsource, hbytes, Array.length_toList]
    exact load_address (.source i) (by show 6 + i < 2 ^ 24; omega) (contents_source hi)
      (h.sources _ (List.getElem_mem hi))
  · intro region hregion a ha hslot
    obtain ⟨window, hwindow, -, hne, hstart, hbytes⟩ :=
      exists_window_of_mem_readRegions h hregion
    obtain ⟨start, bytes⟩ := region
    cases hstart
    exact Window.disjoint hne hwindow (by decide) a (Region.contains_of_le ha hbytes)
      (slot_contains hslot)
  · intro region hregion a ha hread
    obtain ⟨window, hwindow, hne, -, hstart, hbytes⟩ :=
      exists_window_of_mem_readRegions h hregion
    obtain ⟨start, bytes⟩ := region
    cases hstart
    exact Window.disjoint hne hwindow (by decide) a (Region.contains_of_le hread hbytes)
      (htarget a ha)
  · intro a ha hslot
    exact Window.disjoint (by decide) (by decide) (by decide) a (htarget a ha) (slot_contains hslot)

/-- The inputs of a call are its block counts with the bytes of its sources. -/
theorem map_inputs (call : Call) :
    call.inputs.map (fun input => (input.1.count, input.2)) =
      call.counts.zip (call.sources.map Array.toList) := by
  have hfirst : (call.counts.zip call.sources).zipIdx.map Prod.fst =
      call.counts.zip call.sources := List.zipIdx_map_fst ..
  calc call.inputs.map (fun input => (input.1.count, input.2))
      = ((call.counts.zip call.sources).zipIdx.map Prod.fst).map (Prod.map id Array.toList) := by
        rw [inputs, List.map_map, List.map_map]
        rfl
    _ = call.counts.zip (call.sources.map Array.toList) := by rw [hfirst, List.zip_map_right]

end Call

/-- What a routine makes of its sources is at the target after a call in windows of memory. -/
theorem Routine.Makes.exists_run {routine : Routine} {call : Call} {row : List Byte}
    (h : routine.Makes call.counts (call.sources.map Array.toList) row) (hfits : call.Fits)
    (htarget : call.target.size = row.length) :
    ∃ steps, AtReturn routine.code (run routine.code steps call.entryState) ∧
      (run routine.code steps call.entryState).memory.load Call.Window.target.address
        call.target.size = row := by
  obtain ⟨steps, hreturn, hload, -⟩ :=
    h call.entryState Call.descriptor call.inputs call.map_inputs (htarget ▸ Call.atCall hfits)
  exact ⟨steps, hreturn, htarget ▸ hload⟩

end ChannelConcat
