import Mathlib.Algebra.Order.BigOperators.Group.List
import Mathlib.Algebra.Order.Group.Nat
import ChannelConcat.Proofs.Rows
import ChannelConcat.Scalar

/-!
# Interleaving segment by segment

The copy element by element writes one segment after the other: for each row of the target in turn,
the matching row of each source. It goes on up to the first source that is too short, so that what
was written is known exactly wherever it stops. Main definition: `FilledTo`. Main statements:
`stopped_interleave`, `interleave_fills_rows`, `interleave_faults_exactly`.
-/

namespace ChannelConcat

variable {α : Type}

/-- The offset of the segment of an input in a row: the channels of all inputs before it. -/
def segmentOffset (channels : List Nat) (input : Nat) : Nat :=
  (channels.take input).sum

/-- Row `index` of a buffer holds the segment of an input: all items of row `index` of its source,
each of them changed by `f`. -/
def HoldsSegment (f : α → α) (sources : List (Array α)) (channels : List Nat) (buffer : Array α)
    (index input : Nat) : Prop :=
  ∀ source width, sources[input]? = some source → channels[input]? = some width →
    ∀ j < width, ∃ item, source[index * width + j]? = some item ∧
      buffer[index * channels.sum + segmentOffset channels input + j]? = some (f item)

/-- A target that was filled up to the segment of an input in row `index`: all segments before it
are there, and the rest is as it was. -/
structure FilledTo (f : α → α) (sources : List (Array α)) (channels : List Nat)
    (target buffer : Array α) (index input : Nat) : Prop where
  size_eq : buffer.size = target.size
  rows : ∀ row < index, ∀ i, HoldsSegment f sources channels buffer row i
  segments : ∀ i < input, HoldsSegment f sources channels buffer index i
  rest : ∀ k, index * channels.sum + segmentOffset channels input ≤ k → buffer[k]? = target[k]?

/-- The source of an input ends before the end of its row `index`. -/
def IsShort (sources : List (Array α)) (channels : List Nat) (index input : Nat) : Prop :=
  ∃ source width, sources[input]? = some source ∧ channels[input]? = some width ∧
    source.size < (index + 1) * width

/-- The first segment of the given number of rows whose source is too short. -/
structure FirstShort (sources : List (Array α)) (channels : List Nat) (rows index input : Nat) :
    Prop where
  index_lt : index < rows
  short : IsShort sources channels index input
  rows_before : ∀ row < index, ∀ i, ¬IsShort sources channels row i
  segments_before : ∀ i < input, ¬IsShort sources channels index i

/-- How a run over rows of segments ends: all of them are filled, or it stops at a segment whose
source is too short. -/
inductive Stopped (f : α → α) (sources : List (Array α)) (channels : List Nat) (target : Array α)
    (rows : Nat) : Filled α → Prop where
  | complete {buffer : Array α} (h : FilledTo f sources channels target buffer rows 0) :
      Stopped f sources channels target rows ⟨buffer, none⟩
  | short {buffer source : Array α} {index input width : Nat} (hindex : index < rows)
      (hsource : sources[input]? = some source) (hwidth : channels[input]? = some width)
      (hshort : source.size < (index + 1) * width)
      (h : FilledTo f sources channels target buffer index input) :
      Stopped f sources channels target rows
        ⟨buffer, some (.slice ((index + 1) * width) source.size)⟩

variable {f : α → α} {sources : List (Array α)} {channels : List Nat} {target buffer : Array α}
  {index input width rows : Nat} {source : Array α}

/-! ## Segments of a row -/

/-- The segment of an input ends where that of the next one begins. -/
theorem segmentOffset_succ (hwidth : channels[input]? = some width) :
    segmentOffset channels (input + 1) = segmentOffset channels input + width := by
  obtain ⟨hinput, rfl⟩ := List.getElem?_eq_some_iff.1 hwidth
  exact List.sum_take_succ channels input hinput

/-- Behind the last input the row ends. -/
theorem segmentOffset_of_le (h : channels.length ≤ input) :
    segmentOffset channels input = channels.sum := by
  rw [segmentOffset, List.take_of_length_le h]

/-- The segments of later inputs begin later. -/
theorem segmentOffset_mono (channels : List Nat) : Monotone (segmentOffset channels) :=
  List.monotone_sum_take channels

/-- No segment begins behind the end of its row. -/
theorem segmentOffset_le (channels : List Nat) (input : Nat) :
    segmentOffset channels input ≤ channels.sum := by
  rw [← segmentOffset_of_le (Nat.le_max_left channels.length input)]
  exact segmentOffset_mono channels (Nat.le_max_right ..)

/-- A segment ends inside its row. -/
theorem segmentOffset_add_le (hwidth : channels[input]? = some width) :
    segmentOffset channels input + width ≤ channels.sum :=
  segmentOffset_succ hwidth ▸ segmentOffset_le ..

/-- A segment that is there has all of its items in the source. -/
theorem HoldsSegment.not_isShort (h : HoldsSegment f sources channels buffer index input) :
    ¬IsShort sources channels index input := by
  rintro ⟨source, width, hsource, hwidth, hshort⟩
  rw [Nat.succ_mul] at hshort
  cases width with
  | zero => exact Nat.not_lt_zero _ hshort
  | succ last =>
      obtain ⟨item, hitem, -⟩ := h source (last + 1) hsource hwidth last (Nat.lt_succ_self last)
      obtain ⟨hinside, -⟩ := Array.getElem?_eq_some_iff.1 hitem
      omega

/-- A segment stays when the buffer changes behind it. -/
theorem HoldsSegment.overwrite (h : HoldsSegment f sources channels buffer index input)
    {start : Nat} (items : List α)
    (hstart : ∀ width, channels[input]? = some width →
      index * channels.sum + segmentOffset channels input + width ≤ start) :
    HoldsSegment f sources channels (Buffer.overwrite buffer start items) index input := by
  intro source width hsource hwidth j hj
  obtain ⟨item, hitem, hheld⟩ := h source width hsource hwidth j hj
  have hbefore := hstart width hwidth
  refine ⟨item, hitem, ?_⟩
  rw [Buffer.getElem?_overwrite, if_neg (by omega), hheld]

/-- A segment is there once the row of its source was put in its place. -/
theorem holdsSegment_overwrite (hsource : sources[input]? = some source)
    (hwidth : channels[input]? = some width) (hrow : Buffer.HasRow width index source)
    (hfits : index * channels.sum + segmentOffset channels input + width ≤ buffer.size) :
    HoldsSegment f sources channels
      (Buffer.overwrite buffer (index * channels.sum + segmentOffset channels input)
        ((Buffer.rowItems source width index).map f)) index input := by
  intro other otherWidth hother hotherWidth j hj
  obtain rfl : source = other := Option.some.inj (hsource.symm.trans hother)
  obtain rfl : width = otherWidth := Option.some.inj (hwidth.symm.trans hotherWidth)
  have hinside := hrow.stop_le
  rw [Nat.succ_mul] at hinside
  have hitem : source[index * width + j]? = some source[index * width + j] :=
    Array.getElem?_eq_getElem _
  refine ⟨_, hitem, ?_⟩
  rw [Buffer.getElem?_overwrite, if_pos, Nat.add_sub_cancel_left, List.getElem?_map,
    Buffer.getElem?_rowItems hj, hitem, Option.map_some]
  rw [List.length_map, Buffer.length_rowItems hrow]
  omega

/-! ## One segment further -/

namespace FilledTo

/-- A target as it is was filled up to its first segment. -/
theorem start : FilledTo f sources channels target target 0 0 :=
  ⟨rfl, fun _ h => absurd h (Nat.not_lt_zero _), fun _ h => absurd h (Nat.not_lt_zero _),
    fun _ _ => rfl⟩

/-- Writing the row of its source fills the target up to the next segment. -/
theorem next (h : FilledTo f sources channels target buffer index input)
    (hsource : sources[input]? = some source) (hwidth : channels[input]? = some width)
    (hrow : Buffer.HasRow width index source)
    (hfits : (index + 1) * channels.sum ≤ target.size) :
    FilledTo f sources channels target
      (Buffer.overwrite buffer (index * channels.sum + segmentOffset channels input)
        ((Buffer.rowItems source width index).map f)) index (input + 1) := by
  have hend := segmentOffset_add_le hwidth
  rw [Nat.succ_mul] at hfits
  refine ⟨(Buffer.size_overwrite ..).trans h.size_eq, ?_, ?_, ?_⟩
  -- Whatever was filled before ends where the new segment begins.
  · intro row hrowBefore i
    refine (h.rows row hrowBefore i).overwrite _ ?_
    intro otherWidth hother
    have hotherEnd := segmentOffset_add_le hother
    have hrowEnd := Nat.mul_le_mul_right channels.sum (Nat.succ_le_of_lt hrowBefore)
    rw [Nat.succ_mul] at hrowEnd
    omega
  · intro i hi
    rcases Nat.lt_succ_iff_lt_or_eq.1 hi with hbefore | rfl
    · refine (h.segments i hbefore).overwrite _ ?_
      intro otherWidth hother
      have hnext := segmentOffset_mono channels (Nat.succ_le_of_lt hbefore)
      rw [segmentOffset_succ hother] at hnext
      omega
    · exact holdsSegment_overwrite hsource hwidth hrow (by rw [h.size_eq]; omega)
  · intro k hk
    rw [segmentOffset_succ hwidth] at hk
    rw [Buffer.getElem?_overwrite, if_neg]
    · exact h.rest k (by omega)
    · rw [List.length_map, Buffer.length_rowItems hrow]
      omega

/-- Behind its last segment a row is complete. -/
theorem nextRow (h : FilledTo f sources channels target buffer index input)
    (hinput : channels.length ≤ input) :
    FilledTo f sources channels target buffer (index + 1) 0 := by
  refine ⟨h.size_eq, ?_, fun _ hi => absurd hi (Nat.not_lt_zero _), ?_⟩
  · intro row hrow i
    rcases Nat.lt_succ_iff_lt_or_eq.1 hrow with hbefore | rfl
    · exact h.rows row hbefore i
    · by_cases hi : i < input
      · exact h.segments i hi
      · intro source width _ hwidth
        rw [List.getElem?_eq_none (by omega)] at hwidth
        cases hwidth
  · intro k hk
    refine h.rest k ?_
    rw [segmentOffset_of_le hinput, ← Nat.succ_mul]
    exact Nat.le_trans (Nat.le_add_right ..) hk

/-- A segment that is too short is the first one if the target was filled up to it. -/
theorem firstShort (h : FilledTo f sources channels target buffer index input)
    (hindex : index < rows) (hshort : IsShort sources channels index input) :
    FirstShort sources channels rows index input :=
  ⟨hindex, hshort, fun row hrow i => (h.rows row hrow i).not_isShort,
    fun i hi => (h.segments i hi).not_isShort⟩

end FilledTo

/-! ## Runs -/

/-- The rest of a row, begun at the segment that a target was filled up to. -/
theorem FilledTo.stopped_interleaveRow (hlength : sources.length = channels.length)
    (htarget : target.size < Size.limit) (hfits : (index + 1) * channels.sum ≤ target.size)
    (h : FilledTo f sources channels target buffer index input) :
    Stopped f sources channels target (index + 1)
      (interleaveRow f index ((sources.zip channels).drop input)
        (index * channels.sum + segmentOffset channels input) buffer) := by
  -- The induction is on the segments left; the target filled so far is the invariant.
  induction hrest : (sources.zip channels).drop input generalizing input buffer with
  | nil =>
      have hinput := List.drop_eq_nil_iff.1 hrest
      rw [List.length_zip, hlength, Nat.min_self] at hinput
      exact .complete (h.nextRow hinput)
  | cons pair later ih =>
      obtain ⟨source, width⟩ := pair
      have hpair : (sources.zip channels)[input]? = some (source, width) := by
        rw [← List.head?_drop, hrest, List.head?_cons]
      obtain ⟨hsource, hwidth⟩ := List.getElem?_zip_eq_some.1 hpair
      have hlater : (sources.zip channels).drop (input + 1) = later := by
        rw [← List.tail_drop, hrest, List.tail_cons]
      -- The end of a row of a source is a size because the row of the target ends inside it.
      have hstop : (index + 1) * width < Size.limit :=
        calc (index + 1) * width
          _ ≤ (index + 1) * channels.sum :=
            Nat.mul_le_mul_left _ (Nat.le_trans (Nat.le_add_left ..) (segmentOffset_add_le hwidth))
          _ ≤ target.size := hfits
          _ < Size.limit := htarget
      rw [interleaveRow, Buffer.row_eq hstop]
      by_cases hstop_le : (index + 1) * width ≤ source.size
      · rw [if_pos hstop_le, Nat.add_assoc, ← segmentOffset_succ hwidth]
        exact ih (h.next hsource hwidth ⟨hstop_le, hstop⟩ hfits) hlater
      · rw [if_neg hstop_le]
        exact .short (Nat.lt_succ_self index) hsource hwidth (Nat.lt_of_not_le hstop_le) h

/-- Another row is gone on with if all rows before it were filled. -/
theorem Stopped.andThen {filled : Filled α} (h : Stopped f sources channels target rows filled)
    {next : Array α → Filled α}
    (hnext : ∀ buffer, FilledTo f sources channels target buffer rows 0 →
      Stopped f sources channels target (rows + 1) (next buffer)) :
    Stopped f sources channels target (rows + 1) (filled.andThen next) := by
  cases h with
  | complete h => exact hnext _ h
  | short hindex hsource hwidth hshort h =>
      exact .short (Nat.lt_succ_of_lt hindex) hsource hwidth hshort h

/-- All rows up to a number, the first of them at the beginning of the target. -/
theorem stopped_interleaveRows (hlength : sources.length = channels.length)
    (htarget : target.size < Size.limit) (hfits : rows * channels.sum ≤ target.size) :
    Stopped f sources channels target rows
      ((List.range rows).foldl
        (fun (filled : Filled α) index => filled.andThen
          (interleaveRow f index (sources.zip channels) (index * channels.sum)))
        ⟨target, none⟩) := by
  induction rows with
  | zero => exact .complete .start
  | succ rows ih =>
      have hbefore : rows * channels.sum ≤ target.size :=
        Nat.le_trans (Nat.mul_le_mul_right _ (Nat.le_succ rows)) hfits
      rw [List.range_succ, List.foldl_append]
      refine (ih hbefore).andThen ?_
      intro buffer h
      exact h.stopped_interleaveRow hlength htarget hfits

/-- The copy element by element of sources and channels of one number stops behind the last whole
row of the target or at the first segment whose source is too short. -/
theorem stopped_interleave (hlength : sources.length = channels.length)
    (hsum : channels.sum < Size.limit) (htarget : target.size < Size.limit) :
    Stopped f sources channels target (target.size / channels.sum)
      (interleave f sources channels target) := by
  rw [interleave, if_pos hlength, interleaveFrom, Size.sum_eq_ok_iff.2 ⟨rfl, hsum⟩]
  simp only [Buffer.fillRows, Nat.zero_add]
  exact stopped_interleaveRows hlength htarget (Nat.div_mul_le_self ..)

/-- Where some segment is short, the run stops at the first such segment. -/
theorem interleave_of_isShort (hlength : sources.length = channels.length)
    (hsum : channels.sum < Size.limit) (htarget : target.size < Size.limit)
    (hshort : ∃ index < target.size / channels.sum, ∃ input,
      IsShort sources channels index input) :
    ∃ index input source width filled,
      FirstShort sources channels (target.size / channels.sum) index input ∧
      sources[input]? = some source ∧ channels[input]? = some width ∧
      interleave f sources channels target =
        ⟨filled, some (.slice ((index + 1) * width) source.size)⟩ ∧
      FilledTo f sources channels target filled index input := by
  have hstopped := stopped_interleave (f := f) hlength hsum htarget
  generalize interleave f sources channels target = outcome at hstopped ⊢
  cases hstopped with
  | complete h =>
      obtain ⟨index, hindex, input, hmissing⟩ := hshort
      exact absurd hmissing (h.rows index hindex input).not_isShort
  | @short buffer source index input width hindex hsource hwidth hsize h =>
      have hfirst := h.firstShort hindex ⟨source, width, hsource, hwidth, hsize⟩
      exact ⟨index, input, source, width, buffer, hfirst, hsource, hwidth, rfl, h⟩

/-- The run faults exactly if some segment is short. -/
theorem exists_fault_iff_isShort (hlength : sources.length = channels.length)
    (hsum : channels.sum < Size.limit) (htarget : target.size < Size.limit) :
    (∃ fault, (interleave f sources channels target).fault = some fault) ↔
      ∃ index < target.size / channels.sum, ∃ input, IsShort sources channels index input := by
  constructor
  · rintro ⟨fault, hfault⟩
    have hstopped := stopped_interleave (f := f) hlength hsum htarget
    generalize interleave f sources channels target = outcome at hstopped hfault
    cases hstopped with
    | complete h => cases hfault
    | short hindex hsource hwidth hsize h =>
        exact ⟨_, hindex, _, _, _, hsource, hwidth, hsize⟩
  · intro hshort
    obtain ⟨index, input, source, width, filled, -, -, -, houtcome, -⟩ :=
      interleave_of_isShort (f := f) hlength hsum htarget hshort
    exact ⟨_, congrArg Filled.fault houtcome⟩

/-! ## Enough sources, and shortages -/

/-- Sources that are long enough for all whole rows of the target are interleaved without a fault:
every row holds the segments of all inputs in their places, and what follows the last whole row is
as it was. -/
theorem interleave_fills_rows {scalar : Scalar} {relu : Bool}
    {sources : List (Array scalar.Value)} {channels : List Nat} {target : Array scalar.Value}
    (hlength : sources.length = channels.length) (hsum : channels.sum < Size.limit)
    (htarget : target.size < Size.limit)
    (hsources : ∀ pair ∈ sources.zip channels,
      target.size / channels.sum * pair.2 ≤ pair.1.size) :
    ∃ filled : Array scalar.Value,
      interleave (if relu then scalar.clamp else id) sources channels target = ⟨filled, none⟩ ∧
      filled.size = target.size ∧
      (∀ row < target.size / channels.sum, ∀ input,
        HoldsSegment (if relu then scalar.clamp else id) sources channels filled row input) ∧
      (∀ k, target.size / channels.sum * channels.sum ≤ k → filled[k]? = target[k]?) ∧
      (channels.sum = 0 → filled = target) := by
  have hstopped := stopped_interleave (f := if relu then scalar.clamp else id) hlength hsum htarget
  generalize interleave _ sources channels target = outcome at hstopped ⊢
  cases hstopped with
  | complete h =>
      refine ⟨_, rfl, h.size_eq, h.rows, h.rest, fun hnone => ?_⟩
      apply Array.ext_getElem?
      intro k
      exact h.rest k (by rw [hnone, Nat.mul_zero]; exact Nat.zero_le k)
  | @short _ source _ _ width hindex hsource hwidth hshort h =>
      have henough := hsources (source, width)
        (List.mem_of_getElem? (List.getElem?_zip_eq_some.2 ⟨hsource, hwidth⟩))
      exact absurd (Nat.le_trans (Nat.mul_le_mul_right _ hindex) henough) (Nat.not_le.2 hshort)

/-- Three inputs, the second of them without channels and the first with a longer source than
needed, into two rows and an item more. -/
theorem interleave_fills_rows_three_inputs :
    let sources : List (Array Scalar.s8.Value) := [#[255, 2, 253, 4, 9], #[], #[5, 250]]
    let channels := [2, 0, 1]
    let target : Array Scalar.s8.Value := #[7, 7, 7, 7, 7, 7, 7]
    sources.length = channels.length ∧ channels.sum < Size.limit ∧ target.size < Size.limit ∧
      (∀ pair ∈ sources.zip channels, target.size / channels.sum * pair.2 ≤ pair.1.size) ∧
      ∃ filled : Array Scalar.s8.Value,
        interleave (if true then Scalar.s8.clamp else id) sources channels target =
          ⟨filled, none⟩ ∧
        filled.size = target.size ∧
        (∀ row < target.size / channels.sum, ∀ input,
          HoldsSegment (if true then Scalar.s8.clamp else id) sources channels filled row input) ∧
        (∀ k, target.size / channels.sum * channels.sum ≤ k → filled[k]? = target[k]?) ∧
        (channels.sum = 0 → filled = target) := by
  intro sources channels target
  have hsources : ∀ pair ∈ sources.zip channels,
      target.size / channels.sum * pair.2 ≤ pair.1.size := by decide
  exact ⟨rfl, by decide, by decide, hsources,
    interleave_fills_rows rfl (by decide) (by decide) hsources⟩

/-- The faults of the copy element by element, and what each of them leaves in the target. -/
structure FaultsExactly (f : α → α) (sources : List (Array α)) (channels : List Nat)
    (target : Array α) : Prop where
  fault_iff : (∃ fault, (interleave f sources channels target).fault = some fault) ↔
    sources.length ≠ channels.length ∨ Size.limit ≤ channels.sum ∨
      0 < channels.sum ∧ ∃ index < target.size / channels.sum, ∃ input,
        IsShort sources channels index input
  of_length : sources.length ≠ channels.length →
    interleave f sources channels target =
      ⟨target, some (.sourceCount sources.length channels.length)⟩
  of_sum : sources.length = channels.length → Size.limit ≤ channels.sum →
    interleave f sources channels target = ⟨target, some .sum⟩
  of_short : sources.length = channels.length → channels.sum < Size.limit →
    (∃ index < target.size / channels.sum, ∃ input, IsShort sources channels index input) →
    ∃ index input source width filled,
      FirstShort sources channels (target.size / channels.sum) index input ∧
      sources[input]? = some source ∧ channels[input]? = some width ∧
      interleave f sources channels target =
        ⟨filled, some (.slice ((index + 1) * width) source.size)⟩ ∧
      FilledTo f sources channels target filled index input
  products_lt : ∀ index < target.size / channels.sum, ∀ width ∈ channels,
    index * width < Size.limit ∧ (index + 1) * width < Size.limit

/-- The copy element by element faults exactly if the numbers of sources and of channels differ, the
channels cannot be added, or the source of some row of some input is too short. In the first two
cases the target is as it was. In the last the fault is that of the first missing row, and the
target is filled up to the segment of this row. All ends of rows are sizes. -/
theorem interleave_faults_exactly {scalar : Scalar} {relu : Bool}
    {sources : List (Array scalar.Value)} {channels : List Nat} {target : Array scalar.Value}
    (htarget : target.size < Size.limit) :
    FaultsExactly (if relu then scalar.clamp else id) sources channels target := by
  generalize (if relu then scalar.clamp else id) = f
  have hcount (hlength : sources.length ≠ channels.length) :
      interleave f sources channels target =
        ⟨target, some (.sourceCount sources.length channels.length)⟩ := if_neg hlength
  have hwide (hlength : sources.length = channels.length) (hsum : Size.limit ≤ channels.sum) :
      interleave f sources channels target = ⟨target, some .sum⟩ := by
    rw [interleave, if_pos hlength, interleaveFrom, Size.sum_eq_error_of_le hsum]
  refine ⟨?_, hcount, hwide, fun hlength hsum => interleave_of_isShort hlength hsum htarget, ?_⟩
  · by_cases hlength : sources.length = channels.length
    · by_cases hsum : channels.sum < Size.limit
      · rw [exists_fault_iff_isShort hlength hsum htarget]
        constructor
        · rintro ⟨index, hindex, input, hshort⟩
          have hpos : 0 < channels.sum := by
            refine Nat.pos_of_ne_zero fun hnone => ?_
            rw [hnone, Nat.div_zero] at hindex
            exact Nat.not_lt_zero _ hindex
          exact .inr (.inr ⟨hpos, index, hindex, input, hshort⟩)
        · rintro (hcounts | hlimit | ⟨-, hshort⟩)
          · exact absurd hlength hcounts
          · exact absurd hsum (Nat.not_lt.2 hlimit)
          · exact hshort
      · have hlimit := Nat.le_of_not_lt hsum
        rw [hwide hlength hlimit]
        exact ⟨fun _ => .inr (.inl hlimit), fun _ => ⟨_, rfl⟩⟩
    · rw [hcount hlength]
      exact ⟨fun _ => .inl hlength, fun _ => ⟨_, rfl⟩⟩
  · intro index hindex width hwidth
    have hstop : (index + 1) * width < Size.limit :=
      calc (index + 1) * width
        _ ≤ target.size / channels.sum * channels.sum :=
          Nat.mul_le_mul hindex (List.le_sum_of_mem hwidth)
        _ ≤ target.size := Nat.div_mul_le_self ..
        _ < Size.limit := htarget
    exact ⟨Nat.lt_of_le_of_lt (Nat.mul_le_mul_right _ (Nat.le_succ index)) hstop, hstop⟩

/-- Two inputs, the second of them with a source of one row for two rows of the target. -/
theorem interleave_faults_exactly_two_inputs :
    let sources : List (Array Scalar.s32.Value) := [#[1, 2, 3, 4], #[5]]
    let channels := [2, 1]
    let target : Array Scalar.s32.Value := #[7, 7, 7, 7, 7, 7, 7]
    target.size < Size.limit ∧ sources.length = channels.length ∧ channels.sum < Size.limit ∧
      IsShort sources channels 1 1 ∧
      FaultsExactly (if false then Scalar.s32.clamp else id) sources channels target :=
  ⟨by decide, rfl, by decide, ⟨#[5], 1, rfl, rfl, by decide⟩,
    interleave_faults_exactly (by decide)⟩

end ChannelConcat
