/-!
# Words and bytes

A word of `n` bytes is stored as a list of `n` bytes, the least significant byte first. Main
statement: `ofBytes_toBytes` says that reading back what was stored gives the word again.
-/

namespace ChannelConcat

/-- A byte of memory. -/
abbrev Byte := BitVec 8

namespace Word

/-- The bytes of a word, the least significant first. -/
def toBytes (n : Nat) (word : BitVec (8 * n)) : List Byte :=
  (List.range n).map fun k => word.extractLsb' (8 * k) 8

/-- The number that a list of bytes denotes, the least significant first. -/
def value (bytes : List Byte) : Nat :=
  bytes.foldr (fun byte rest => byte.toNat + 256 * rest) 0

/-- The word that a list of bytes denotes; bytes past the width of the word are dropped. -/
def ofBytes (n : Nat) (bytes : List Byte) : BitVec (8 * n) :=
  BitVec.ofNat (8 * n) (value bytes)

/-- A word has as many bytes as its size says. -/
@[simp] theorem length_toBytes (n : Nat) (word : BitVec (8 * n)) :
    (toBytes n word).length = n := by
  simp [toBytes]

/-- The first byte is the least significant digit to base 256. -/
theorem value_cons (byte : Byte) (bytes : List Byte) :
    value (byte :: bytes) = byte.toNat + 256 * value bytes :=
  rfl

/-- Reading back what was stored gives the word again. -/
theorem ofBytes_toBytes (n : Nat) (word : BitVec (8 * n)) :
    ofBytes n (toBytes n word) = word := by
  -- The bytes of a number are its digits to base 256.
  have hdigits (n word : Nat) :
      value ((List.range n).map fun k => BitVec.ofNat 8 (word / 256 ^ k)) = word % 256 ^ n := by
    induction n generalizing word with
    | zero => simp [value, Nat.mod_one]
    | succ n ih =>
        have hshift (k : Nat) : word / 256 ^ (k + 1) = word / 256 / 256 ^ k := by
          rw [Nat.pow_succ, Nat.mul_comm, Nat.div_div_eq_div_mul]
        have hpower : (256 : Nat) ^ (n + 1) = 256 * 256 ^ n := Nat.pow_succ'
        have hbyte : (BitVec.ofNat 8 word).toNat = word % 256 := BitVec.toNat_ofNat ..
        rw [List.range_succ_eq_map, List.map_cons, List.map_map, value_cons]
        simp only [Function.comp_def, Nat.succ_eq_add_one, hshift, ih, Nat.pow_zero, Nat.div_one,
          hbyte]
        rw [hpower, Nat.mod_mul]
  have hbytes : toBytes n word =
      (List.range n).map fun k => BitVec.ofNat 8 (word.toNat / 256 ^ k) := by
    refine List.map_congr_left fun k _ => BitVec.eq_of_toNat_eq ?_
    rw [BitVec.extractLsb'_toNat, BitVec.toNat_ofNat, Nat.shiftRight_eq_div_pow, Nat.pow_mul]
  apply BitVec.eq_of_toNat_eq
  rw [ofBytes, hbytes, hdigits, BitVec.toNat_ofNat, show 256 = 2 ^ 8 from rfl,
    ← Nat.pow_mul, Nat.mod_mod, Nat.mod_eq_of_lt word.isLt]

end Word

end ChannelConcat
