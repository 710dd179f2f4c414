import ChannelConcat.Buffer
import Mathlib.Algebra.Ring.Nat

/-!
# Replacing stretches of buffers

Stretches that are replaced side by side amount to one long stretch, and pieces of one image that
are put in place in any order amount to the image wherever a piece was put. Main statements:
`foldl_zipIdx_overwrite`, `getElem?_foldl_overwrite_pieces`.
-/

namespace ChannelConcat

section Rows

variable {α β : Type} {g : β → List α} {width : Nat}

/-- Rows of equal length, one behind the other, have the length of all rows together. -/
theorem length_flatMap_rows {parts : List β} (h : ∀ part ∈ parts, (g part).length = width) :
    (parts.flatMap g).length = parts.length * width := by
  rw [List.length_flatMap, List.map_congr_left h, List.map_const', List.sum_replicate_nat]

/-- The items behind as many rows are the later rows. -/
theorem drop_flatMap_rows {parts : List β} (h : ∀ part ∈ parts, (g part).length = width)
    (count : Nat) : (parts.flatMap g).drop (count * width) = (parts.drop count).flatMap g := by
  induction count generalizing parts with
  | zero => rw [Nat.zero_mul, List.drop_zero, List.drop_zero]
  | succ count ih =>
      cases parts with
      | nil => rw [List.flatMap_nil, List.drop_nil, List.drop_nil, List.flatMap_nil]
      | cons part parts =>
          rw [List.flatMap_cons, Nat.succ_mul, Nat.add_comm, ← List.drop_drop,
            List.drop_left' (h part List.mem_cons_self), List.drop_succ_cons,
            ih fun later hlater => h later (.tail _ hlater)]

/-- The items of as many rows are the first rows. -/
theorem take_flatMap_rows {parts : List β} (h : ∀ part ∈ parts, (g part).length = width)
    (count : Nat) : (parts.flatMap g).take (count * width) = (parts.take count).flatMap g := by
  induction count generalizing parts with
  | zero => rw [Nat.zero_mul, List.take_zero, List.take_zero, List.flatMap_nil]
  | succ count ih =>
      cases parts with
      | nil => rw [List.flatMap_nil, List.take_nil, List.take_nil, List.flatMap_nil]
      | cons part parts =>
          rw [List.flatMap_cons, Nat.succ_mul, Nat.add_comm, ← h part List.mem_cons_self,
            List.take_length_add_append, h part List.mem_cons_self,
            ih fun later hlater => h later (.tail _ hlater), List.take_succ_cons,
            List.flatMap_cons]

/-- One row among rows of equal length. -/
theorem row_flatMap_rows {parts : List β} (h : ∀ part ∈ parts, (g part).length = width) {k : Nat}
    (hk : k < parts.length) : ((parts.flatMap g).drop (k * width)).take width = g parts[k] := by
  rw [drop_flatMap_rows h, List.drop_eq_getElem_cons hk, List.flatMap_cons,
    List.take_left' (h _ (List.getElem_mem hk))]

end Rows

/-- A list is its chunks one behind the other. -/
theorem flatMap_chunks {α : Type} {items : List α} {count width : Nat}
    (h : items.length = count * width) :
    ((List.range count).flatMap fun k => (items.drop (k * width)).take width) = items := by
  induction count generalizing items with
  | zero => rw [List.eq_nil_of_length_eq_zero (h.trans (Nat.zero_mul _))]; rfl
  | succ count ih =>
      have hrest : (items.drop width).length = count * width := by
        rw [List.length_drop, h, Nat.succ_mul, Nat.add_sub_cancel]
      have hshift (k : Nat) : items.drop ((k + 1) * width) =
          (items.drop width).drop (k * width) := by
        rw [List.drop_drop, Nat.succ_mul, Nat.add_comm]
      rw [List.range_succ_eq_map, List.flatMap_cons, List.flatMap_map, Nat.zero_mul, List.drop_zero]
      simp only [hshift]
      rw [ih hrest, List.take_append_drop]

namespace Buffer

variable {α β : Type}

/-- A stretch is cut out of the items of its buffer. -/
theorem stretch_eq (buffer : Array α) (start stop : Nat) :
    stretch buffer start stop = (buffer.toList.drop start).take (stop - start) := by
  simp [stretch, List.extract_eq_take_drop]

/-- Stretches side by side are replaced like one long stretch. -/
theorem overwrite_append (buffer : Array α) (offset : Nat) (items more : List α) :
    overwrite buffer offset (items ++ more) =
      overwrite (overwrite buffer offset items) (offset + items.length) more := by
  induction items generalizing buffer offset with
  | nil => rfl
  | cons item items ih =>
      rw [List.cons_append, overwrite, ih, overwrite, List.length_cons, Nat.add_assoc,
        Nat.add_comm 1]

/-- A buffer that is replaced as a whole holds the new items. -/
theorem overwrite_eq_toArray {buffer : Array α} {items : List α}
    (h : items.length = buffer.size) : overwrite buffer 0 items = items.toArray := by
  apply Array.ext_getElem?
  intro i
  rw [getElem?_overwrite]
  by_cases hi : i < buffer.size
  · rw [if_pos (by omega), Nat.sub_zero, List.getElem?_toArray]
  · rw [if_neg (by omega), Array.getElem?_eq_none (Nat.le_of_not_lt hi),
      List.getElem?_toArray, List.getElem?_eq_none (h ▸ Nat.le_of_not_lt hi)]

/-- Stretches of equal length, numbered from a first one on, are replaced like one long stretch. -/
theorem foldl_zipIdx_overwrite {width : Nat} {g : β → List α} (parts : List β)
    (h : ∀ part ∈ parts, (g part).length = width) (first : Nat) (buffer : Array α) :
    (parts.zipIdx first).foldl (fun buffer part => overwrite buffer (part.2 * width) (g part.1))
      buffer = overwrite buffer (first * width) (parts.flatMap g) := by
  induction parts generalizing first buffer with
  | nil => rfl
  | cons part parts ih =>
      rw [List.zipIdx_cons, List.foldl_cons, ih fun later hlater => h later (.tail _ hlater),
        List.flatMap_cons, overwrite_append, h part List.mem_cons_self, Nat.succ_mul]

/-- Stretches of equal length are replaced like one long stretch. -/
theorem foldl_range_overwrite {width : Nat} {g : Nat → List α} (rows : Nat)
    (h : ∀ k < rows, (g k).length = width) (buffer : Array α) :
    (List.range rows).foldl (fun buffer k => overwrite buffer (k * width) (g k)) buffer =
      overwrite buffer 0 ((List.range rows).flatMap g) := by
  have hpairs : (List.range rows).zipIdx = (List.range rows).map fun k => (k, k) := by
    apply List.ext_getElem (by simp)
    intro k hk hk'
    simp
  have hlong := foldl_zipIdx_overwrite (List.range rows)
    (fun k hk => h k (List.mem_range.1 hk)) 0 buffer
  rwa [hpairs, List.foldl_map, Nat.zero_mul] at hlong

/-- Pieces of one image that are put in place in any order: the buffer holds the image where a piece
was put, and elsewhere what it held. -/
theorem getElem?_foldl_overwrite_pieces {image : List α} {chunk : Nat} (hchunk : 0 < chunk)
    (order : List Nat) {buffer : Array α} (hsize : buffer.size = image.length) (i : Nat) :
    (order.foldl (fun buffer piece =>
      overwrite buffer (piece * chunk) ((image.drop (piece * chunk)).take chunk)) buffer)[i]? =
      if i / chunk ∈ order then image[i]? else buffer[i]? := by
  induction order generalizing buffer with
  | nil => simp
  | cons piece order ih =>
      rw [List.foldl_cons, ih (by rw [size_overwrite, hsize]), getElem?_overwrite]
      -- What later pieces cover is theirs; the first piece covers exactly its own indices.
      by_cases hlater : i / chunk ∈ order
      · rw [if_pos hlater, if_pos (List.mem_cons_of_mem _ hlater)]
      · have hfirst : i / chunk ∈ piece :: order ↔
            piece * chunk ≤ i ∧ i < piece * chunk + chunk := by
          rw [List.mem_cons, or_iff_left hlater, Nat.div_eq_iff hchunk]
          omega
        rw [if_neg hlater, List.length_take, List.length_drop]
        by_cases hi : i / chunk ∈ piece :: order
        · obtain ⟨hlow, hhigh⟩ := hfirst.1 hi
          rw [if_pos hi]
          by_cases hin : i < image.length
          · rw [if_pos (by omega), List.getElem?_take_of_lt (by omega), List.getElem?_drop,
              Nat.add_sub_cancel' hlow]
          · rw [if_neg (by omega), List.getElem?_eq_none (by omega),
              Array.getElem?_eq_none (by omega)]
        · rw [if_neg hi, if_neg fun hin => hi (hfirst.2 ⟨hin.1, by omega⟩)]

end Buffer

end ChannelConcat
