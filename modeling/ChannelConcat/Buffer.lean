import ChannelConcat.Size
import ChannelConcat.Word

/-!
# Buffers

Buffers are arrays. This module has the replacement of a stretch of a buffer, the part of a buffer
that belongs to one row, the run of a row operation over all rows, and the passage between buffers
of words and buffers of bytes. Main statement: `getElem?_overwrite` says what a buffer holds after a
stretch of it was replaced.
-/

namespace ChannelConcat

/-- A buffer after an operation that fills it, with the fault that ended the operation early if
there was one. What was written before the fault stays. -/
structure Filled (α : Type) where
  buffer : Array α
  fault : Option Fault

namespace Filled

/-- Go on with another operation unless a fault ended this one. -/
def andThen {α : Type} (filled : Filled α) (next : Array α → Filled α) : Filled α :=
  match filled with
  | ⟨buffer, none⟩ => next buffer
  | ⟨buffer, some fault⟩ => ⟨buffer, some fault⟩

end Filled

namespace Buffer

/-- Replace the items of a buffer from an offset on; what would lie past its end is dropped. -/
def overwrite {α : Type} (buffer : Array α) (offset : Nat) : List α → Array α
  | [] => buffer
  | item :: items => overwrite (buffer.setIfInBounds offset item) (offset + 1) items

/-- Replacing a stretch keeps the size of the buffer. -/
@[simp] theorem size_overwrite {α : Type} (buffer : Array α) (offset : Nat) (items : List α) :
    (overwrite buffer offset items).size = buffer.size := by
  induction items generalizing buffer offset with
  | nil => rfl
  | cons item items ih => simp [overwrite, ih]

/-- Inside the replaced stretch a buffer holds the new items, and outside of it what it held. -/
theorem getElem?_overwrite {α : Type} (buffer : Array α) (offset : Nat) (items : List α) (i : Nat) :
    (overwrite buffer offset items)[i]? =
      if offset ≤ i ∧ i < offset + items.length ∧ i < buffer.size then items[i - offset]?
      else buffer[i]? := by
  induction items generalizing buffer offset with
  | nil =>
      have hempty : ¬(offset ≤ i ∧ i < offset + ([] : List α).length ∧ i < buffer.size) := by
        simp only [List.length_nil]
        omega
      rw [if_neg hempty]
      rfl
  | cons item items ih =>
      rw [overwrite, ih]
      by_cases hi : offset = i
      · subst hi
        by_cases hsize : offset < buffer.size
        · have hlater : ¬(offset + 1 ≤ offset) := by omega
          simp [hlater, hsize]
        · simp [hsize]
      · simp only [Array.size_setIfInBounds, List.length_cons,
          Array.getElem?_setIfInBounds_ne hi]
        by_cases hin : offset + 1 ≤ i ∧ i < offset + 1 + items.length ∧ i < buffer.size
        · have hout : offset ≤ i ∧ i < offset + (items.length + 1) ∧ i < buffer.size := by omega
          rw [if_pos hin, if_pos hout, show i - offset = (i - (offset + 1)) + 1 by omega,
            List.getElem?_cons_succ]
        · have hout : ¬(offset ≤ i ∧ i < offset + (items.length + 1) ∧ i < buffer.size) := by
            omega
          rw [if_neg hin, if_neg hout]

/-- Replacing a stretch by the same items once more changes nothing. -/
theorem overwrite_overwrite {α : Type} (buffer : Array α) (offset : Nat) (items : List α) :
    overwrite (overwrite buffer offset items) offset items = overwrite buffer offset items := by
  apply Array.ext_getElem?
  intro i
  simp only [getElem?_overwrite, size_overwrite]
  split <;> rfl

/-- The items from one offset up to another. -/
def stretch {α : Type} (buffer : Array α) (start stop : Nat) : List α :=
  (buffer.extract start stop).toList

/-- The items of a row, for rows of the given width. It is a fault if the row ends past the end of
the buffer. -/
def row {α : Type} (buffer : Array α) (width index : Nat) : Except Fault (List α) := do
  let start ← Size.mul index width
  let stop ← Size.mul (index + 1) width
  if stop ≤ buffer.size then .ok (stretch buffer start stop)
  else .error (.slice stop buffer.size)

/-- Fill each whole row of a buffer in turn, for rows of the given width. The operation for a row is
given the number of the row, counted from `first`, and the offset of the row in the buffer. A width
of zero has no rows. -/
def fillRows {α : Type} (fill : Nat → Nat → Array α → Filled α) (width first : Nat)
    (buffer : Array α) : Filled α :=
  (List.range (buffer.size / width)).foldl
    (fun filled k => filled.andThen (fill (first + k) (k * width))) ⟨buffer, none⟩

/-- The bytes of a list of words of `n` bytes each. -/
def bytesOf (n : Nat) (words : List (BitVec (8 * n))) : Array Byte :=
  (words.flatMap (Word.toBytes n)).toArray

/-- The words of `n` bytes each in a buffer of bytes; an incomplete last word is dropped. -/
def wordsOf (n : Nat) (bytes : Array Byte) : List (BitVec (8 * n)) :=
  (List.range (bytes.size / n)).map fun k =>
    Word.ofBytes n (stretch bytes (n * k) (n * k + n))

end Buffer

end ChannelConcat
