import ChannelConcat.Buffer
import ChannelConcat.Proofs.Overwrite

/-!
# Words in buffers of bytes

A buffer of bytes that holds words one behind the other is cut between words by dropping and taking
bytes, and read back as the same words. Main statements: `take_drop_flatMap_toBytes`,
`Buffer.wordsOf_toArray`.
-/

namespace ChannelConcat

variable {n : Nat}

/-- The bytes of words take as many bytes as the words together. -/
@[simp] theorem length_flatMap_toBytes (words : List (BitVec (8 * n))) :
    (words.flatMap (Word.toBytes n)).length = words.length * n :=
  length_flatMap_rows fun word _ => Word.length_toBytes n word

/-- The bytes of a stretch of words are a stretch of the bytes of all words. -/
theorem take_drop_flatMap_toBytes (words : List (BitVec (8 * n))) (first count : Nat) :
    ((words.flatMap (Word.toBytes n)).drop (first * n)).take (count * n) =
      ((words.drop first).take count).flatMap (Word.toBytes n) := by
  rw [drop_flatMap_rows fun word _ => Word.length_toBytes n word,
    take_flatMap_rows fun word _ => Word.length_toBytes n word]

/-- The bytes of one word among the bytes of all words. -/
theorem take_drop_flatMap_toBytes_one {words : List (BitVec (8 * n))} {k : Nat}
    (hk : k < words.length) :
    ((words.flatMap (Word.toBytes n)).drop (n * k)).take n = Word.toBytes n words[k] := by
  rw [Nat.mul_comm, row_flatMap_rows (fun word _ => Word.length_toBytes n word) hk]

/-- The bytes of zeros are zeros. -/
theorem replicate_zero_eq_flatMap (n count : Nat) :
    List.replicate (count * n) (0 : Byte) =
      (List.replicate count (0 : BitVec (8 * n))).flatMap (Word.toBytes n) := by
  have hzero : Word.toBytes n 0 = List.replicate n 0 := by
    simp [Word.toBytes, List.map_const']
  induction count with
  | zero => simp
  | succ count ih =>
      rw [List.replicate_succ, List.flatMap_cons, ← ih, hzero, Nat.succ_mul, Nat.add_comm,
        List.replicate_append_replicate]

namespace Buffer

/-- The bytes of words read back are the words. -/
theorem wordsOf_toArray (hn : 0 < n) (words : List (BitVec (8 * n))) :
    wordsOf n (words.flatMap (Word.toBytes n)).toArray = words := by
  have hsize : (words.flatMap (Word.toBytes n)).toArray.size / n = words.length := by
    rw [List.size_toArray, length_flatMap_toBytes, Nat.mul_div_cancel _ hn]
  rw [wordsOf, hsize]
  apply List.ext_getElem
  · rw [List.length_map, List.length_range]
  · intro k hk hk'
    rw [List.getElem_map, List.getElem_range, stretch_eq, Nat.add_sub_cancel_left,
      take_drop_flatMap_toBytes_one hk', Word.ofBytes_toBytes]

end Buffer

end ChannelConcat
