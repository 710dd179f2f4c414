import ChannelConcat.Interleave
import ChannelConcat.Proofs.Counts
import ChannelConcat.Proofs.Overwrite

/-!
# Filling rows

A target of whole rows that is filled row by row holds the rows one behind the other. For the copy
element by element a row is the matching rows of the sources side by side, each element changed on
its way. Main statements: `Buffer.fillRows_eq`, `interleaveFrom_eq`, `interleave_eq`.
-/

namespace ChannelConcat

variable {α β : Type}

/-- Operations that do not fault and keep the size of the buffer are run one after the other. -/
theorem Filled.foldl_andThen {step : β → Array α → Filled α} {next : β → Array α → Array α}
    {size : Nat} {items : List β} (hsize : ∀ item ∈ items, ∀ current : Array α,
      current.size = size → (next item current).size = size)
    (hstep : ∀ item ∈ items, ∀ current : Array α, current.size = size →
      step item current = ⟨next item current, none⟩)
    {buffer : Array α} (hbuffer : buffer.size = size) :
    items.foldl (fun (filled : Filled α) item => filled.andThen (step item)) ⟨buffer, none⟩ =
      ⟨items.foldl (fun current item => next item current) buffer, none⟩ := by
  induction items generalizing buffer with
  | nil => rfl
  | cons item items ih =>
      rw [List.foldl_cons, List.foldl_cons, andThen, hstep item List.mem_cons_self buffer hbuffer]
      exact ih (fun later hlater => hsize later (.tail _ hlater))
        (fun later hlater => hstep later (.tail _ hlater))
        (hsize item List.mem_cons_self buffer hbuffer)

namespace Buffer

/-- A buffer has a row of the given width and number, and the end of this row is a size. -/
structure HasRow (width index : Nat) (buffer : Array α) : Prop where
  stop_le : (index + 1) * width ≤ buffer.size
  stop_lt : (index + 1) * width < Size.limit

/-- The items of a row, for rows of the given width. -/
def rowItems (buffer : Array α) (width index : Nat) : List α :=
  stretch buffer (index * width) ((index + 1) * width)

variable {buffer : Array α} {width index : Nat}

/-- A row has as many items as its width says. -/
theorem length_rowItems (h : HasRow width index buffer) :
    (rowItems buffer width index).length = width := by
  have := h.stop_le
  rw [rowItems, stretch_eq, List.length_take, List.length_drop, Array.length_toList]
  rw [Nat.succ_mul] at this ⊢
  omega

/-- The items of a row are those of the buffer from the beginning of the row on. -/
theorem getElem?_rowItems {j : Nat} (hj : j < width) :
    (rowItems buffer width index)[j]? = buffer[index * width + j]? := by
  rw [rowItems, stretch_eq, Nat.succ_mul, Nat.add_sub_cancel_left, List.getElem?_take_of_lt hj,
    List.getElem?_drop, Array.getElem?_toList]

/-- A row whose end is a size is found if it ends inside the buffer, and otherwise the end is
reported with the length of the buffer. -/
theorem row_eq (hstop : (index + 1) * width < Size.limit) (buffer : Array α) :
    row buffer width index =
      if (index + 1) * width ≤ buffer.size then .ok (rowItems buffer width index)
      else .error (.slice ((index + 1) * width) buffer.size) := by
  have hstart : index * width < Size.limit :=
    Nat.lt_of_le_of_lt (Nat.mul_le_mul_right _ (Nat.le_succ index)) hstop
  rw [row, Size.mul_eq_ok_iff.2 ⟨rfl, hstart⟩, Size.mul_eq_ok_iff.2 ⟨rfl, hstop⟩]
  rfl

/-- A row that a buffer has is found. -/
theorem row_eq_ok (h : HasRow width index buffer) :
    row buffer width index = .ok (rowItems buffer width index) := by
  rw [row_eq h.stop_lt, if_pos h.stop_le]

/-- A buffer of whole rows that is filled row by row holds the rows one behind the other. -/
theorem fillRows_eq {fill : Nat → Nat → Array α → Filled α} {items : Nat → List α}
    {first rows : Nat} (hsize : buffer.size = rows * width) (hwidth : 0 < width)
    (hlength : ∀ k < rows, (items (first + k)).length = width)
    (hfill : ∀ k < rows, ∀ current : Array α, current.size = buffer.size →
      fill (first + k) (k * width) current =
        ⟨overwrite current (k * width) (items (first + k)), none⟩) :
    fillRows fill width first buffer =
      ⟨((List.range rows).flatMap fun k => items (first + k)).toArray, none⟩ := by
  rw [fillRows, hsize, Nat.mul_div_cancel _ hwidth,
    Filled.foldl_andThen (fun _ _ _ h => (size_overwrite ..).trans h)
      (fun k hk => hfill k (List.mem_range.1 hk)) rfl,
    foldl_range_overwrite rows hlength, overwrite_eq_toArray]
  rw [length_flatMap_rows fun k hk => hlength k (List.mem_range.1 hk), List.length_range,
      hsize]

/-- The rows of a buffer that holds rows one behind the other are the rows that it is made of. -/
theorem rowItems_flatMap_range {items : Nat → List α} {rows : Nat}
    (hlength : ∀ k < rows, (items k).length = width) (hindex : index < rows) :
    rowItems ((List.range rows).flatMap items).toArray width index = items index := by
  have hrows (k : Nat) (hk : k ∈ List.range rows) := hlength k (List.mem_range.1 hk)
  rw [rowItems, stretch_eq, Nat.succ_mul, Nat.add_sub_cancel_left,
    row_flatMap_rows hrows (by rwa [List.length_range]), List.getElem_range]

end Buffer

/-! ## Rows of several sources -/

/-- Row `index` of a target: the matching rows of the sources side by side, each element changed by
`f`. -/
def interleaved (f : α → α) (sources : List (Array α × Nat)) (index : Nat) : List α :=
  sources.flatMap fun source => (Buffer.rowItems source.1 source.2 index).map f

variable {f : α → α} {sources : List (Array α × Nat)} {index : Nat}

/-- A row of the target is as wide as the rows of all sources together. -/
theorem length_interleaved (h : ∀ source ∈ sources, Buffer.HasRow source.2 index source.1) :
    (interleaved f sources index).length = (sources.map Prod.snd).sum := by
  rw [interleaved, List.length_flatMap]
  congr 1
  refine List.map_congr_left ?_
  intro source hsource
  rw [List.length_map, Buffer.length_rowItems (h source hsource)]

/-- A row is filled with the matching rows of the sources. -/
theorem interleaveRow_eq (h : ∀ source ∈ sources, Buffer.HasRow source.2 index source.1)
    (offset : Nat) (target : Array α) :
    interleaveRow f index sources offset target =
      ⟨Buffer.overwrite target offset (interleaved f sources index), none⟩ := by
  induction sources generalizing offset target with
  | nil => rfl
  | cons source sources ih =>
      have hrow := h source List.mem_cons_self
      rw [interleaveRow, Buffer.row_eq_ok hrow]
      simp only
      rw [ih fun later hlater => h later (.tail _ hlater), interleaved, interleaved,
        List.flatMap_cons, Buffer.overwrite_append, List.length_map, Buffer.length_rowItems hrow]

/-- A target of whole rows is filled with the matching rows of the sources. -/
theorem interleaveFrom_eq {sources : List (Array α)} {channels : List Nat} {first rows : Nat}
    {target : Array α} (hlength : sources.length = channels.length)
    (hsum : channels.sum < Size.limit) (hpos : 0 < channels.sum)
    (hsize : target.size = rows * channels.sum)
    (hrows : ∀ k < rows, ∀ source ∈ sources.zip channels,
      Buffer.HasRow source.2 (first + k) source.1) :
    interleaveFrom f sources channels first target =
      ⟨((List.range rows).flatMap fun k =>
        interleaved f (sources.zip channels) (first + k)).toArray, none⟩ := by
  rw [interleaveFrom, Size.sum_eq_ok_iff.2 ⟨rfl, hsum⟩]
  refine Buffer.fillRows_eq hsize hpos ?_ ?_
  · intro k hk
    rw [length_interleaved (hrows k hk), List.map_snd_zip (Nat.le_of_eq hlength.symm)]
  · intro k hk current _
    exact interleaveRow_eq (hrows k hk) _ _

/-- A target of whole rows is interleaved without a fault, also if there are no channels. -/
theorem interleave_eq {sources : List (Array α)} {channels : List Nat} {rows : Nat}
    {target : Array α} (hlength : sources.length = channels.length)
    (hsum : channels.sum < Size.limit) (hsize : target.size = rows * channels.sum)
    (hrows : ∀ k < rows, ∀ source ∈ sources.zip channels, Buffer.HasRow source.2 k source.1) :
    interleave f sources channels target =
      ⟨((List.range rows).flatMap (interleaved f (sources.zip channels))).toArray, none⟩ := by
  rw [interleave, if_pos hlength]
  by_cases hpos : 0 < channels.sum
  · have hfirst (k : Nat) : 0 + k = k := Nat.zero_add k
    rw [interleaveFrom_eq hlength hsum hpos hsize (by simpa only [hfirst] using hrows)]
    simp only [hfirst]
  · -- Rows without items leave the empty target as it is.
    have hnone : channels.sum = 0 := Nat.eq_zero_of_not_pos hpos
    have hempty : target = #[] :=
      Array.eq_empty_of_size_eq_zero (by rw [hsize, hnone, Nat.mul_zero])
    have hitems : (List.range rows).flatMap (interleaved f (sources.zip channels)) = [] := by
      apply List.eq_nil_of_length_eq_zero
      rw [length_flatMap_rows fun k hk => length_interleaved (hrows k (List.mem_range.1 hk)),
        List.map_snd_zip (Nat.le_of_eq hlength.symm), hnone, Nat.mul_zero]
    rw [interleaveFrom, Size.sum_eq_ok_iff.2 ⟨rfl, hsum⟩, hitems, hempty, hnone]
    simp only [Buffer.fillRows, Nat.div_zero, List.range_zero, List.foldl_nil]

end ChannelConcat
