import ChannelConcat.Proofs.X86.Statements

/-!
# Listings read line by line

A listing is read without knowledge of the code: every line gives an address and, behind two blanks,
the statement of an instruction or the mark of bytes that are none. Main definition:
`readListing?`. Main statement: `readListing?_listing` says that every listing is read back as the
lines it was written from.
-/

namespace ChannelConcat.X86

/-- What a line of a listing says: an address and the statement of the instruction there, which is
missing where the bytes are no whole instruction. -/
structure Row where
  address : Nat
  statement? : Option Statement
  deriving DecidableEq

/-- The mark of bytes that are no whole instruction. -/
def badMark : List Char :=
  ['(', 'b', 'a', 'd', ')']

/-- The row that a line denotes. -/
def readRow? (text : List Char) : Option Row := do
  let address ← readDigits? 16 (text.takeWhile (· ≠ ' '))
  match text.dropWhile (· ≠ ' ') with
  | ' ' :: ' ' :: rest =>
      if rest = badMark then some ⟨address, none⟩
      else (readStatement? rest).map fun statement => ⟨address, some statement⟩
  | _ => none

/-- The rows that a listing denotes, one per line; every line is ended by a line feed. -/
def readListing? (text : String) : Option (List Row) :=
  let texts := text.toList.splitOn '\n'
  if texts.getLast? = some [] then texts.dropLast.mapM readRow? else none

/-- What a line of a listing is to say. -/
def Line.row (line : Line) : Row where
  address := line.address
  statement? := line.instr?.map fun instr => instr.statement (line.address + line.size)

/-! ## Lines -/

/-- The digits of an address. -/
def addressChars (address : Nat) : List Char :=
  zeroPadded 4 (Nat.toDigits 16 address)

/-- What stands in a line behind the address. -/
def Line.rest (line : Line) : List Char :=
  match line.instr? with
  | some instr => (instr.text (line.address + line.size)).toList
  | none => badMark

/-- A line is its address, two blanks and the rest. -/
theorem Line.toList_text (line : Line) :
    line.text.toList = addressChars line.address ++ ' ' :: ' ' :: line.rest := by
  have hblanks : "  ".toList = [' ', ' '] := rfl
  have hbad : "(bad)".toList = badMark := rfl
  rw [Line.text, String.toList_append, String.toList_append, String.toList_ofList, hblanks,
    List.append_assoc, Line.rest]
  cases line.instr? with
  | none => rw [hbad]; rfl
  | some instr => rfl

/-- An address has no characters but digits to base 16. -/
theorem alphanum_of_mem_addressChars {address : Nat} {c : Char} (h : c ∈ addressChars address) :
    c.isAlphanum = true := by
  rcases List.mem_append.1 h with hzero | hdigit
  · rw [List.eq_of_mem_replicate hzero]
    decide
  · obtain ⟨d, hlt, rfl⟩ := exists_of_mem_toDigits (by decide) hdigit
    clear hdigit h
    revert d
    decide

/-- The text of an instruction is not the mark of bytes that are none. -/
theorem toList_text_ne_badMark (instr : Instr) (next : Nat) :
    (instr.text next).toList ≠ badMark := by
  intro h
  have hmem : '(' ∈ (instr.text next).toList := by
    rw [h]
    decide
  rw [X86.toList_text] at hmem
  exact absurd (Statement.mem_chars (wellFormed_statement instr next) hmem) (by decide)

/-- A line is read back. -/
theorem readRow?_text (line : Line) : readRow? line.text.toList = some line.row := by
  have haddress : ∀ c ∈ addressChars line.address, decide (c ≠ ' ') = true := by
    intro c hc
    refine decide_eq_true ?_
    rintro rfl
    exact absurd (alphanum_of_mem_addressChars hc) (by decide)
  have hread : readDigits? 16 (addressChars line.address) = some line.address :=
    readDigits?_address 4 line.address
  rw [readRow?, line.toList_text, List.takeWhile_append_of_pos haddress,
    List.dropWhile_append_of_pos haddress]
  simp only [List.takeWhile_cons, List.dropWhile_cons, ne_eq, not_true_eq_false, decide_false,
    Bool.false_eq_true, if_false, List.append_nil, hread, Option.bind_eq_bind, Option.bind_some]
  rw [Line.rest, Line.row]
  cases line.instr? with
  | none => rfl
  | some instr =>
      simp only [if_neg (toList_text_ne_badMark instr _), readStatement?_text, Option.map_some]

/-- A line has no line feed. -/
theorem lineFeed_notMem_line (line : Line) : '\n' ∉ line.text.toList := by
  rw [line.toList_text, List.mem_append, List.mem_cons, List.mem_cons]
  rintro (haddress | hblank | hblank | hrest)
  · exact absurd (alphanum_of_mem_addressChars haddress) (by decide)
  · exact absurd hblank (by decide)
  · exact absurd hblank (by decide)
  · rw [Line.rest] at hrest
    split at hrest
    · exact lineFeed_notMem_text _ _ hrest
    · exact absurd hrest (by decide)

/-! ## Listings -/

/-- Texts that are all ended by a separator are separated by it, with nothing behind the last. -/
theorem flatMap_concat_eq_intercalate {α : Type} (separator : α) (texts : List (List α)) :
    (texts.flatMap fun text => text ++ [separator]) =
      [separator].intercalate (texts ++ [[]]) := by
  induction texts with
  | nil => rfl
  | cons text texts ih =>
      rw [List.flatMap_cons, ih]
      cases texts with
      | nil => simp
      | cons second texts => exact List.intercalate_cons_cons.symm

/-- The lines of a listing are found again. -/
theorem splitOn_listing (code : List Byte) :
    (listing code).toList.splitOn '\n' =
      ((lines code).map fun line => line.text.toList) ++ [[]] := by
  have hfeed : "\n".toList = ['\n'] := rfl
  have htext : (listing code).toList =
      (((lines code).map fun line => line.text.toList).flatMap fun text => text ++ ['\n']) := by
    rw [listing, String.toList_join, List.flatMap_map, List.flatMap_map]
    simp only [String.toList_append, hfeed]
  rw [htext, flatMap_concat_eq_intercalate, List.splitOn_intercalate]
  · intro text htext
    rcases List.mem_append.1 htext with hline | hlast
    · obtain ⟨line, -, rfl⟩ := List.mem_map.1 hline
      exact lineFeed_notMem_line line
    · rw [List.mem_singleton.1 hlast]
      exact List.not_mem_nil
  · simp

/-- A listing is read back as the lines it was written from. -/
theorem readListing?_listing (code : List Byte) :
    readListing? (listing code) = some ((lines code).map Line.row) := by
  have hread : ((lines code).map fun line => line.text.toList).mapM readRow? =
      some ((lines code).map Line.row) :=
    mapM_map_eq_some fun line _ => readRow?_text line
  simp only [readListing?, splitOn_listing, List.getLast?_concat, List.dropLast_concat, if_pos,
    hread]

end ChannelConcat.X86
