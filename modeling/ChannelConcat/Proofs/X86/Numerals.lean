import ChannelConcat.X86.Listing
import Mathlib.Data.Nat.Digits.Defs

/-!
# Numbers in a listing

How the numbers of a listing are read: to base 16 with digits in either case, and marked by a final
`h` where they stand beside others to base 10. Main definitions: `readDigits?`, `readNumber?`. Main
statements: `readNumber?_numberText` and `readNumber?_targetText` say that every number that is
written is read back.
-/

namespace ChannelConcat.X86

/-- The value of a digit to base 16. -/
def digitValue? (digit : Char) : Option Nat :=
  if '0' ≤ digit ∧ digit ≤ '9' then some (digit.toNat - 48)
  else if 'A' ≤ digit ∧ digit ≤ 'F' then some (digit.toNat - 55)
  else if 'a' ≤ digit ∧ digit ≤ 'f' then some (digit.toNat - 87)
  else none

/-- The number with one more digit behind those of a number. -/
def appendDigit? (base value : Nat) (digit : Char) : Option Nat := do
  let last ← digitValue? digit
  if last < base then some (base * value + last) else none

/-- The number that digits to a base denote, if there are any. -/
def readDigits? (base : Nat) (digits : List Char) : Option Nat :=
  if digits = [] then none else digits.foldlM (appendDigit? base) 0

/-- The number that a text denotes: to base 16 if it ends with an `h`, and to base 10 otherwise. -/
def readNumber? (text : List Char) : Option Nat :=
  if text.getLast? = some 'h' then readDigits? 16 text.dropLast else readDigits? 10 text

/-! ## Digits -/

/-- Digits are read back, also if another way of writing them is used. -/
theorem foldlM_map_toDigits {base : Nat} (hbase : 1 < base) {write : Char → Char}
    (hwrite : ∀ d < base, digitValue? (write d.digitChar) = some d) (n : Nat) :
    ((Nat.toDigits base n).map write).foldlM (appendDigit? base) 0 = some n := by
  induction n using Nat.strongRecOn with
  | ind n ih =>
      by_cases hn : n < base
      · rw [Nat.toDigits_of_lt_base hn]
        simp [appendDigit?, hwrite n hn, hn]
      · have hpos : 0 < n / base := Nat.div_pos (by omega) (by omega)
        have hmod : n % base < base := Nat.mod_lt _ (by omega)
        rw [← Nat.div_add_mod n base, ← Nat.toDigits_append_toDigits hbase hpos hmod,
          Nat.toDigits_of_lt_base hmod, List.map_append, List.foldlM_append,
          ih _ (Nat.div_lt_self (by omega) hbase)]
        simp [appendDigit?, hwrite _ hmod, hmod]

/-- A digit to base 16 has its value in small letters and in capital ones. -/
theorem digitValue?_digitChar {d : Nat} (h : d < 16) :
    digitValue? d.digitChar = some d ∧ digitValue? d.digitChar.toUpper = some d := by
  revert d
  decide

/-- Zeros in front of digits make no difference. -/
theorem foldlM_zeros {base : Nat} (hbase : 0 < base) (count : Nat) (digits : List Char) :
    (List.replicate count '0' ++ digits).foldlM (appendDigit? base) 0 =
      digits.foldlM (appendDigit? base) 0 := by
  induction count with
  | zero => rfl
  | succ count ih =>
      have hzero : appendDigit? base 0 '0' = some 0 := by
        have hvalue : digitValue? '0' = some 0 := rfl
        simp [appendDigit?, hvalue, hbase]
      rw [List.replicate_succ, List.cons_append, List.foldlM_cons, hzero]
      exact ih

/-- An address is read back. -/
theorem readDigits?_address (width n : Nat) :
    readDigits? 16 (zeroPadded width (Nat.toDigits 16 n)) = some n := by
  have hne : zeroPadded width (Nat.toDigits 16 n) ≠ [] := by
    simp [zeroPadded, Nat.toDigits_ne_nil]
  have hread : ((Nat.toDigits 16 n).map id).foldlM (appendDigit? 16) 0 = some n :=
    foldlM_map_toDigits (by decide) (fun d hd => (digitValue?_digitChar hd).1) n
  rw [List.map_id] at hread
  rw [readDigits?, if_neg hne, zeroPadded, foldlM_zeros (by decide), hread]

/-- Digits in capital letters are read back, also with zeros in front. -/
theorem readDigits?_hexDigits (count n : Nat) :
    readDigits? 16 (List.replicate count '0' ++ hexDigits n) = some n := by
  have hne : List.replicate count '0' ++ hexDigits n ≠ [] := by
    simp [hexDigits, Nat.toDigits_ne_nil]
  rw [readDigits?, if_neg hne, foldlM_zeros (by decide), hexDigits,
    foldlM_map_toDigits (by decide) fun d hd => (digitValue?_digitChar hd).2]

/-! ## Numbers -/

/-- A number of less than ten is its digit, and is read back. -/
theorem readNumber?_toString {n : Nat} (h : n < 10) :
    readNumber? (toString n).toList = some n := by
  revert n
  decide

/-- A number with a final `h` is read back, with a further zero in front or without one. -/
theorem readNumber?_hexText (count n : Nat) :
    readNumber? (hexText (List.replicate count '0' ++ hexDigits n)).toList = some n := by
  have hmark (digits : List Char) : readNumber? (digits ++ ['h']) = readDigits? 16 digits := by
    rw [readNumber?, if_pos List.getLast?_concat, List.dropLast_concat]
  have hone : "h".toList = ['h'] := rfl
  rw [hexText, String.toList_append, String.toList_ofList, hone, hmark]
  split
  · exact readDigits?_hexDigits (count + 1) n
  · exact readDigits?_hexDigits count n

/-- A number is read back. -/
theorem readNumber?_numberText (n : Nat) : readNumber? (numberText n).toList = some n := by
  rw [numberText]
  split
  · rename_i h
    exact readNumber?_toString h
  · exact readNumber?_hexText 0 n

/-- A branch target is read back. -/
theorem readNumber?_targetText (target : BitVec 64) :
    readNumber? (targetText target).toList = some target.toNat := by
  rw [targetText]
  split
  · rename_i h
    exact readNumber?_toString h
  · exact readNumber?_hexText _ _

/-! ## Characters -/

/-- A text that begins with a digit and has no characters but letters and digits. -/
structure IsNumeral (text : List Char) : Prop where
  digit : ∃ first rest, text = first :: rest ∧ first.isDigit = true
  alphanum : ∀ c ∈ text, c.isAlphanum = true

/-- The digits of a number are the characters of digits. -/
theorem exists_of_mem_toDigits {base : Nat} (hbase : 1 < base) {n : Nat} {c : Char}
    (h : c ∈ Nat.toDigits base n) : ∃ d < base, c = d.digitChar := by
  induction n using Nat.strongRecOn with
  | ind n ih =>
      by_cases hn : n < base
      · rw [Nat.toDigits_of_lt_base hn, List.mem_singleton] at h
        exact ⟨n, hn, h⟩
      · have hpos : 0 < n / base := Nat.div_pos (by omega) (by omega)
        have hmod : n % base < base := Nat.mod_lt _ (by omega)
        rw [← Nat.div_add_mod n base, ← Nat.toDigits_append_toDigits hbase hpos hmod,
          Nat.toDigits_of_lt_base hmod, List.mem_append, List.mem_singleton] at h
        rcases h with hfront | hlast
        · exact ih _ (Nat.div_lt_self (by omega) hbase) hfront
        · exact ⟨_, hmod, hlast⟩

/-- A digit in capital letters is a letter or a digit, and one of the two only. -/
theorem of_mem_hexDigits {n : Nat} {c : Char} (h : c ∈ hexDigits n) :
    c.isAlphanum = true ∧ (c.isAlpha = false → c.isDigit = true) := by
  obtain ⟨d, hd, rfl⟩ := List.mem_map.1 h
  obtain ⟨d, hlt, rfl⟩ := exists_of_mem_toDigits (by decide) hd
  clear hd h
  revert d
  decide

/-- A number with a final `h` begins with a digit. -/
theorem isNumeral_hexText (count n : Nat) :
    IsNumeral (hexText (List.replicate count '0' ++ hexDigits n)).toList := by
  have hdigits : ∀ c ∈ List.replicate count '0' ++ hexDigits n,
      c.isAlphanum = true ∧ (c.isAlpha = false → c.isDigit = true) := by
    intro c hc
    rcases List.mem_append.1 hc with hzero | hdigit
    · rw [List.eq_of_mem_replicate hzero]
      decide
    · exact of_mem_hexDigits hdigit
  have hne : List.replicate count '0' ++ hexDigits n ≠ [] := by
    simp [hexDigits, Nat.toDigits_ne_nil]
  have hone : "h".toList = ['h'] := rfl
  rw [hexText, String.toList_append, String.toList_ofList, hone]
  generalize List.replicate count '0' ++ hexDigits n = digits at hdigits hne
  obtain ⟨first, rest, rfl⟩ := List.exists_cons_of_ne_nil hne
  rw [List.headD_cons]
  constructor
  case digit =>
    cases hletter : first.isAlpha with
    | true => exact ⟨'0', first :: rest ++ ['h'], rfl, rfl⟩
    | false => exact ⟨first, rest ++ ['h'], rfl, (hdigits first (.head _)).2 hletter⟩
  case alphanum =>
    intro c hc
    rw [List.mem_append, List.mem_singleton] at hc
    rcases hc with hshown | rfl
    · split at hshown
      · rcases List.mem_cons.1 hshown with rfl | hdigit
        · decide
        · exact (hdigits c hdigit).1
      · exact (hdigits c hshown).1
    · decide

/-- A number of less than ten begins with a digit. -/
theorem isNumeral_toString {n : Nat} (h : n < 10) : IsNumeral (toString n).toList := by
  have hone : ∀ n < 10, (toString n).toList = [n.digitChar] := by decide
  rw [hone n h]
  have hdigit : ∀ n < 10, n.digitChar.isDigit = true := by decide
  constructor
  case digit => exact ⟨_, [], rfl, hdigit n h⟩
  case alphanum =>
    intro c hc
    rw [List.mem_singleton.1 hc, Char.isAlphanum, hdigit n h, Bool.or_true]

/-- A number begins with a digit. -/
theorem isNumeral_numberText (n : Nat) : IsNumeral (numberText n).toList := by
  rw [numberText]
  split
  · rename_i h
    exact isNumeral_toString h
  · exact isNumeral_hexText 0 n

/-- A branch target begins with a digit. -/
theorem isNumeral_targetText (target : BitVec 64) : IsNumeral (targetText target).toList := by
  rw [targetText]
  split
  · rename_i h
    exact isNumeral_toString h
  · exact isNumeral_hexText _ _

end ChannelConcat.X86
