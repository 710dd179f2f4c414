import ChannelConcat.Transfer
import Mathlib.Algebra.Ring.Nat

/-!
# Signed words as counters

The loops of a routine count with signed words of four bytes. A number below half the range of such
a word is its own value, and `repeats` reads it back.
-/

namespace ChannelConcat

/-- A word that is widened keeps its low part. -/
theorem setWidth_setWidth_self (word : BitVec 32) : (word.setWidth 64).setWidth 32 = word := by
  rw [BitVec.setWidth_setWidth_of_le _ (by decide), BitVec.setWidth_eq]

/-- A number below half the range of a signed word is its own value. -/
theorem toInt_ofNat_of_lt {n : Nat} (h : n < 2 ^ 31) : (BitVec.ofNat 32 n).toInt = n := by
  have hnat : (BitVec.ofNat 32 n).toNat = n := Nat.mod_eq_of_lt (by omega)
  rw [BitVec.toInt_eq_toNat_of_lt (by rw [hnat]; omega), hnat]

/-- The number behind a number below half the range of a signed word is its own value. -/
theorem toInt_ofNat_add_one {n : Nat} (h : n + 1 < 2 ^ 31) :
    (BitVec.ofNat 32 n + 1).toInt = n + 1 := by
  have hsum : BitVec.ofNat 32 n + 1 = BitVec.ofNat 32 (n + 1) := (BitVec.ofNat_add ..).symm
  rw [hsum, toInt_ofNat_of_lt h, Int.natCast_add, Int.natCast_one]

/-- A loop runs fewer times than half the range of its counter. -/
theorem repeats_lt (count : BitVec 32) : repeats count < 2 ^ 31 := by
  have := BitVec.toInt_lt (x := count)
  unfold repeats
  omega

/-- A loop whose counter is loaded with a number runs that many times. -/
theorem repeats_ofNat {n : Nat} (h : n < 2 ^ 31) : repeats (BitVec.ofNat 32 n) = n := by
  rw [repeats, toInt_ofNat_of_lt h, Int.toNat_natCast]

/-- A positive counter holds the number of times that its loop runs. -/
theorem ofNat_repeats {count : BitVec 32} (h : 0 < count.toInt) :
    BitVec.ofNat 32 (repeats count) = count := by
  apply BitVec.eq_of_toInt_eq
  rw [toInt_ofNat_of_lt (repeats_lt count), repeats, Int.toNat_of_nonneg (Int.le_of_lt h)]

end ChannelConcat
