import Mathlib.Algebra.Ring.Nat
import Mathlib.Data.List.DropRight
import ChannelConcat.Options

/-!
# Reading options

The values that a variable may have are told by a grammar of their own, without the functions that
read them: what trimming leaves (`Text.Trims`), which texts are numerals (`Text.Numeral`), and which
values a variable accepts (`Options.IsSwitch`, `Options.IsWidth`, `Options.IsSize`). Options are
read by these grammars, each from its own variable. Main statements: `Text.trim_eq_iff`,
`Text.readNumeral?_eq_some_iff`, `Options.read_settles`.
-/

namespace ChannelConcat

namespace Text

variable {text word digits : List Char} {n : Nat}

/-! ## Trimming -/

/-- The word is what is left of a text without the blanks at its ends. -/
structure Trims (text word : List Char) : Prop where
  split : ∃ left right, text = left ++ word ++ right ∧
    (∀ c ∈ left, isBlank c = true) ∧ ∀ c ∈ right, isBlank c = true
  head : ∀ c ∈ word.head?, isBlank c = false
  last : ∀ c ∈ word.getLast?, isBlank c = false

/-- Trimming removes the blanks at the end of what is left without those in front. -/
theorem trim_eq (text : List Char) :
    trim text = (text.dropWhile isBlank).rdropWhile isBlank :=
  rfl

/-- Trimming leaves a word without blanks at its ends. -/
theorem trims_trim (text : List Char) : Trims text (trim text) := by
  constructor
  case split =>
    refine ⟨text.takeWhile isBlank, (text.dropWhile isBlank).rtakeWhile isBlank, ?_,
      fun c hc => List.mem_takeWhile_imp hc, fun c hc => List.mem_rtakeWhile_imp hc⟩
    rw [trim_eq, List.append_assoc, List.rdropWhile_append_rtakeWhile,
      List.takeWhile_append_dropWhile]
  case head =>
    intro c hc
    obtain ⟨rest, hrest⟩ := List.rdropWhile_prefix isBlank (text.dropWhile isBlank)
    have hfront : (text.dropWhile isBlank).head? = some c := by
      rw [← hrest, List.head?_append, ← trim_eq, hc, Option.some_or]
    have hnot := List.head?_dropWhile_not isBlank text
    rw [hfront] at hnot
    exact hnot
  case last =>
    intro c hc
    obtain ⟨hne, rfl⟩ := List.mem_getLast?_eq_getLast hc
    exact Bool.eq_false_iff.2 (List.rdropWhile_last_not isBlank _ hne)

/-- Trimming leaves no other word. -/
theorem Trims.trim_eq (h : Trims text word) : trim text = word := by
  obtain ⟨⟨left, right, rfl, hleft, hright⟩, hhead, hlast⟩ := h
  rw [Text.trim_eq, List.append_assoc, List.dropWhile_append_of_pos hleft]
  cases word with
  | nil =>
      -- There is nothing between the blanks, so those in front are all of the text.
      rw [List.nil_append, List.dropWhile_eq_nil_iff.2 hright, List.rdropWhile_nil]
  | cons c word =>
      have hfront : (c :: word ++ right).dropWhile isBlank = c :: word ++ right := by
        rw [List.cons_append, List.dropWhile_cons_of_neg]
        rw [hhead c rfl]
        exact Bool.false_ne_true
      have hback : ∀ c ∈ right.reverse, isBlank c = true := by
        simpa using hright
      rw [hfront, List.rdropWhile, List.reverse_append, List.dropWhile_append_of_pos hback,
        ← List.rdropWhile, List.rdropWhile_eq_self_iff]
      intro hne
      rw [hlast _ (List.getLast?_eq_some_getLast hne)]
      exact Bool.false_ne_true

/-- Trimming leaves a word if and only if the text is the word with blanks around it. -/
theorem trim_eq_iff : trim text = word ↔ Trims text word :=
  ⟨fun h => h ▸ trims_trim text, Trims.trim_eq⟩

/-! ## Numerals -/

/-- One or more decimal digits, with the number that they denote. -/
inductive Digits : List Char → Nat → Prop
  | one {d : Nat} (h : d < 10) : Digits [d.digitChar] d
  /-- A further digit behind the others. -/
  | more {digits : List Char} {n d : Nat} (hdigits : Digits digits n) (h : d < 10) :
      Digits (digits ++ [d.digitChar]) (10 * n + d)

/-- Decimal digits with an optional plus sign in front, and the number that they denote. -/
inductive Numeral : List Char → Nat → Prop
  | unsigned {digits : List Char} {n : Nat} (h : Digits digits n) : Numeral digits n
  | signed {digits : List Char} {n : Nat} (h : Digits digits n) : Numeral ('+' :: digits) n

/-- A digit is that of its value. -/
theorem exists_digitChar_of_isDigit {c : Char} (h : c.isDigit = true) :
    ∃ d < 10, c = d.digitChar ∧ c.toNat - '0'.toNat = d := by
  have hrange : 48 ≤ c.toNat ∧ c.toNat ≤ 57 := Char.isDigit_iff_toNat.1 h
  have hvalue : c.toNat - 48 < 10 := by omega
  refine ⟨c.toNat - 48, hvalue, ?_, rfl⟩
  rw [← Char.toNat_inj, Nat.toNat_digitChar_of_lt_ten hvalue]
  omega

/-- The value of digits with one more behind them. -/
theorem digitsValue_concat (digits : List Char) (c : Char) :
    digitsValue (digits ++ [c]) = 10 * digitsValue digits + (c.toNat - '0'.toNat) :=
  List.foldl_concat ..

/-- Digits denote their value. -/
theorem digits_iff : Digits digits n ↔
    digits ≠ [] ∧ digits.all Char.isDigit = true ∧ digitsValue digits = n := by
  constructor
  · intro h
    induction h with
    | one h =>
        refine ⟨List.cons_ne_nil _ _, ?_, ?_⟩
        · rw [List.all_cons, Nat.isDigit_digitChar, decide_eq_true h]
          rfl
        · show 10 * 0 + (_ - 48) = _
          rw [Nat.toNat_digitChar_of_lt_ten h]
          omega
    | more _ h ih =>
        obtain ⟨-, hall, rfl⟩ := ih
        refine ⟨by simp, ?_, ?_⟩
        · rw [List.all_append, hall, List.all_cons, Nat.isDigit_digitChar, decide_eq_true h]
          rfl
        · rw [digitsValue_concat, Nat.toNat_digitChar_of_lt_ten h]
          show _ + (48 + _ - 48) = _
          omega
  · rintro ⟨hne, hall, rfl⟩
    -- The number grows with each digit at the end, so the digits are taken off there.
    induction digits using List.reverseRecOn with
    | nil => exact absurd rfl hne
    | append_singleton digits c ih =>
        rw [List.all_append, Bool.and_eq_true, List.all_cons, Bool.and_eq_true] at hall
        obtain ⟨d, hd, hc, hvalue⟩ := exists_digitChar_of_isDigit hall.2.1
        rw [digitsValue_concat, hvalue, hc]
        by_cases hnil : digits = []
        · subst hnil
          show Digits [d.digitChar] (10 * 0 + d)
          rw [Nat.mul_zero, Nat.zero_add]
          exact .one hd
        · exact .more (ih hnil hall.1) hd

/-- Digits do not begin with a sign. -/
theorem Digits.afterPlus_eq (h : Digits digits n) : afterPlus digits = digits := by
  unfold afterPlus
  split
  · have hall := (digits_iff.1 h).2.1
    rw [List.all_cons, Bool.and_eq_true] at hall
    exact absurd hall.1 (by decide)
  · rfl

/-- A numeral is digits behind a plus sign, or without one. -/
theorem numeral_iff : Numeral text n ↔ Digits (afterPlus text) n := by
  constructor
  · intro h
    cases h with
    | unsigned h => rwa [h.afterPlus_eq]
    | signed h => exact h
  · intro h
    unfold afterPlus at h
    split at h
    · exact .signed h
    · exact .unsigned h

/-- A text is read as a number below the limit exactly if it is a numeral of that number. -/
theorem readNumeral?_eq_some_iff {limit : Nat} :
    readNumeral? limit text = some n ↔ Numeral text n ∧ n < limit := by
  rw [numeral_iff, digits_iff, readNumeral?]
  constructor
  · intro h
    split at h
    · rename_i hread
      obtain ⟨hne, hall, hlimit⟩ := hread
      cases h
      exact ⟨⟨hne, hall, rfl⟩, hlimit⟩
    · cases h
  · rintro ⟨⟨hne, hall, rfl⟩, hlimit⟩
    exact if_pos ⟨hne, hall, hlimit⟩

end Text

namespace Options

open Text

/-! ## Values -/

/-- The words that a switch is set by. -/
def switchWords : Bool → List String
  | false => ["0", "false", "off"]
  | true => ["1", "true", "on"]

/-- The value is a word for the setting of a switch, in letters of any case, with blanks around
it. -/
def IsSwitch (value : String) (setting : Bool) : Prop :=
  ∃ word, Trims value.toList word ∧
    String.ofList (word.map Char.toLower) ∈ switchWords setting

/-- The value is a numeral of a size, with blanks around it. -/
def IsSize (value : String) (n : Nat) : Prop :=
  ∃ word, Trims value.toList word ∧ Numeral word n ∧ n < 2 ^ 64

/-- The value is a numeral of a width that a register has, with blanks around it. -/
def IsWidth (value : String) (n : Nat) : Prop :=
  IsSize value n ∧ (n = 128 ∨ n = 256 ∨ n = 512)

/-- No word stands for both settings. -/
theorem switchWords_disjoint : ∀ word ∈ switchWords false, word ∉ switchWords true := by
  decide

/-- The word of a value is the only one that is left of it. -/
theorem isSwitch_iff {value : String} {setting : Bool} :
    IsSwitch value setting ↔ switchWord value ∈ switchWords setting := by
  constructor
  · rintro ⟨word, htrims, hword⟩
    rwa [switchWord, trim_eq_iff.2 htrims]
  · intro hword
    exact ⟨_, trim_eq_iff.1 rfl, hword⟩

/-- A switch is read by its words. -/
theorem readSwitch?_eq_some_iff {value : String} {setting : Bool} :
    readSwitch? value = some setting ↔ IsSwitch value setting := by
  have hread : readSwitch? value = if switchWord value ∈ switchWords false then some false
      else if switchWord value ∈ switchWords true then some true else none := rfl
  rw [isSwitch_iff, hread]
  by_cases hoff : switchWord value ∈ switchWords false
  · have hnotOn := switchWords_disjoint _ hoff
    cases setting <;> simp [hoff, hnotOn]
  · by_cases hon : switchWord value ∈ switchWords true
    · cases setting <;> simp [hoff, hon]
    · cases setting <;> simp [hoff, hon]

/-- A size is read by its numerals. -/
theorem readSize?_eq_some_iff {value : String} {n : Nat} :
    readSize? value = some n ↔ IsSize value n := by
  rw [readSize?, readNumeral?_eq_some_iff]
  constructor
  · rintro ⟨hnumeral, hlimit⟩
    exact ⟨_, trim_eq_iff.1 rfl, hnumeral, hlimit⟩
  · rintro ⟨word, htrims, hnumeral, hlimit⟩
    rw [trim_eq_iff.2 htrims]
    exact ⟨hnumeral, hlimit⟩

/-- Signs, leading zeros and blanks of any kind are accepted, up to the greatest size. -/
example :
    ["+007", "\u2003 18446744073709551615\t", "18446744073709551616", "+", "1 2", "-1"].map
      readSize? = [some 7, some 18446744073709551615, none, none, none, none] := by
  decide

/-- A width is read by its numerals. -/
theorem readWidth?_eq_some_iff {value : String} {n : Nat} :
    readWidth? value = some n ↔ IsWidth value n := by
  rw [readWidth?, Option.filter_eq_some_iff, readSize?_eq_some_iff, IsWidth]
  simp [Plan.registerWidths]

/-! ## One variable -/

/-- The setting and the warning of a variable whose values are told by a grammar. A variable that is
absent leaves the default without a warning, an accepted value is the setting without a warning, and
a value that is not accepted leaves the default with a warning. -/
structure Settles {α : Type} (accepts : String → α → Prop) (default : α) (value : Option String)
    (setting : α) (warned : Prop) : Prop where
  absent : value = none → setting = default ∧ ¬ warned
  accepted : ∀ text, value = some text → ∀ n, accepts text n ↔ setting = n ∧ ¬ warned
  rejected : ∀ text, value = some text → (∀ n, ¬ accepts text n) → setting = default ∧ warned

namespace Settles

variable {α : Type} {accepts : String → α → Prop} {default setting : α} {value : Option String}
  {warned : Prop}

/-- A setting is the default, or else what the value was accepted for. -/
theorem eq_default_or (h : Settles accepts default value setting warned) :
    setting = default ∨ ∃ text, value = some text ∧ accepts text setting := by
  cases value with
  | none => exact .inl (h.absent rfl).1
  | some text =>
      by_cases haccepts : ∃ n, accepts text n
      · obtain ⟨n, hn⟩ := haccepts
        obtain ⟨rfl, -⟩ := (h.accepted text rfl n).1 hn
        exact .inr ⟨text, rfl, hn⟩
      · exact .inl (h.rejected text rfl fun n hn => haccepts ⟨n, hn⟩).1

/-- A setting that is not the default is what the value was accepted for. -/
theorem eq_iff (h : Settles accepts default value setting warned) {n : α} (hn : n ≠ default) :
    setting = n ↔ ∃ text, value = some text ∧ accepts text n := by
  constructor
  · rintro rfl
    exact h.eq_default_or.resolve_left hn
  · rintro ⟨text, rfl, haccepts⟩
    exact ((h.accepted text rfl n).1 haccepts).1

/-- A setting is the default if the variable is absent or its value is accepted for the default or
not at all. -/
theorem eq_default_iff (h : Settles accepts default value setting warned) :
    setting = default ↔ value = none ∨
      ∃ text, value = some text ∧ (accepts text default ∨ ∀ n, ¬ accepts text n) := by
  constructor
  · rintro rfl
    cases value with
    | none => exact .inl rfl
    | some text =>
        refine .inr ⟨text, rfl, ?_⟩
        by_cases haccepts : ∃ n, accepts text n
        · obtain ⟨n, hn⟩ := haccepts
          obtain ⟨rfl, -⟩ := (h.accepted text rfl n).1 hn
          exact .inl hn
        · exact .inr fun n hn => haccepts ⟨n, hn⟩
  · rintro (hnone | ⟨text, rfl, haccepts | hnone⟩)
    · exact (h.absent hnone).1
    · exact ((h.accepted text rfl default).1 haccepts).1
    · exact (h.rejected text rfl hnone).1

/-- A variable gives a warning if it is present and no setting is accepted for its value. -/
theorem warned_iff (h : Settles accepts default value setting warned) :
    warned ↔ ∃ text, value = some text ∧ ∀ n, ¬ accepts text n := by
  constructor
  · intro hwarned
    cases value with
    | none => exact absurd hwarned (h.absent rfl).2
    | some text =>
        refine ⟨text, rfl, ?_⟩
        intro n hn
        exact ((h.accepted text rfl n).1 hn).2 hwarned
  · rintro ⟨text, rfl, hnone⟩
    exact (h.rejected text rfl hnone).2

end Settles

section Read

variable {α : Type} {accepts : String → α → Prop} {read? : String → Option α}

/-- A variable is settled by the grammar that its values are read by. -/
theorem settles_readVariable (hread : ∀ text n, read? text = some n ↔ accepts text n)
    (source : Variable) (default : α) (shown : String → String) (value : Option String) :
    Settles accepts default value (readVariable source default read? shown value).1
      ((readVariable source default read? shown value).2 ≠ []) := by
  cases value with
  | none => exact ⟨fun _ => ⟨rfl, fun h => h rfl⟩, nofun, nofun⟩
  | some text =>
      cases hfound : read? text with
      | none =>
          have hnone (n : α) : ¬ accepts text n := by
            rw [← hread, hfound]
            exact nofun
          simp only [readVariable, hfound]
          constructor
          case absent => exact nofun
          case accepted =>
            rintro _ ⟨⟩ n
            simp [hnone n]
          case rejected =>
            rintro _ ⟨⟩ -
            simp
      | some found =>
          simp only [readVariable, hfound]
          constructor
          case absent => exact nofun
          case accepted =>
            rintro _ ⟨⟩ n
            rw [← hread, hfound]
            simp
          case rejected =>
            rintro _ ⟨⟩ hnone
            exact absurd ((hread text found).1 hfound) (hnone found)

/-- A variable gives no warning but its own, and that at most once. -/
theorem map_source_readVariable (source : Variable) (default : α) (shown : String → String)
    (value : Option String) :
    (readVariable source default read? shown value).2.map Warning.source =
      if (readVariable source default read? shown value).2 = [] then [] else [source] := by
  cases value with
  | none => rfl
  | some text => cases hfound : read? text <;> simp [readVariable, hfound]

end Read

/-! ## All variables -/

/-- The value is in the grammar of the variable. -/
def Understood : Variable → String → Prop
  | .generate, text => ∃ setting, IsSwitch text setting
  | .maxBits, text => ∃ n, IsWidth text n
  | .parallelFrom, text => ∃ n, IsSize text n

/-- The variable gives a warning. -/
def Warned (lookup : String → Option String) (source : Variable) : Prop :=
  source ∈ (read lookup).2.map Warning.source

/-- A variable gives a warning if and only if reading it does. -/
theorem warned_iff (lookup : String → Option String) (source : Variable) :
    Warned lookup source ↔
      match source with
      | .generate => (readVariable .generate true readSwitch? switchWord
          (lookup Variable.generate.key)).2 ≠ []
      | .maxBits => (readVariable .maxBits 512 readWidth? id (lookup Variable.maxBits.key)).2 ≠ []
      | .parallelFrom => (readVariable .parallelFrom 1024 readSize? id
          (lookup Variable.parallelFrom.key)).2 ≠ [] := by
  unfold Warned read
  rw [List.map_append, List.map_append, map_source_readVariable, map_source_readVariable,
    map_source_readVariable]
  cases source <;> simp

/-- The switch is settled by its words. -/
theorem settles_generate (lookup : String → Option String) :
    Settles IsSwitch true (lookup Variable.generate.key) (read lookup).1.generate
      (Warned lookup .generate) := by
  rw [warned_iff]
  exact settles_readVariable (fun _ _ => readSwitch?_eq_some_iff) ..

/-- The widest vector is settled by the numerals of the widths. -/
theorem settles_maxBits (lookup : String → Option String) :
    Settles IsWidth 512 (lookup Variable.maxBits.key) (read lookup).1.maxBits
      (Warned lookup .maxBits) := by
  rw [warned_iff]
  exact settles_readVariable (fun _ _ => readWidth?_eq_some_iff) ..

/-- The number of positions is settled by the numerals of sizes. -/
theorem settles_parallelFrom (lookup : String → Option String) :
    Settles IsSize 1024 (lookup Variable.parallelFrom.key) (read lookup).1.parallelFrom
      (Warned lookup .parallelFrom) := by
  rw [warned_iff]
  exact settles_readVariable (fun _ _ => readSize?_eq_some_iff) ..

/-- The warnings are in the order of the variables. -/
theorem sublist_lookupOrder (lookup : String → Option String) :
    List.Sublist ((read lookup).2.map Warning.source) lookupOrder := by
  have hone (given : Prop) [Decidable given] (source : Variable) :
      List.Sublist (if given then [] else [source]) [source] := by
    split
    · exact List.nil_sublist _
    · exact List.Sublist.refl _
  unfold read
  rw [List.map_append, List.map_append, map_source_readVariable, map_source_readVariable,
    map_source_readVariable]
  exact ((hone _ .generate).append (hone _ .maxBits)).append (hone _ .parallelFrom)

/-- Options are read by the grammars of their values, and each from its own variable. Whatever a
lookup finds, the widest vector is one that a register has, and each option is the default if its
variable is absent or its value is not in the grammar, and what the value denotes otherwise. There
is one warning for each variable whose value is not in the grammar, in the order of the variables,
and no other. A lookup that finds the same for a variable leads to the same option. -/
theorem read_settles (lookup : String → Option String) :
    ((read lookup).1.maxBits = 128 ∨ (read lookup).1.maxBits = 256 ∨
      (read lookup).1.maxBits = 512) ∧
    Settles IsSwitch true (lookup Variable.generate.key) (read lookup).1.generate
      (Warned lookup .generate) ∧
    Settles IsWidth 512 (lookup Variable.maxBits.key) (read lookup).1.maxBits
      (Warned lookup .maxBits) ∧
    Settles IsSize 1024 (lookup Variable.parallelFrom.key) (read lookup).1.parallelFrom
      (Warned lookup .parallelFrom) ∧
    ((read lookup).1.generate = false ↔
      ∃ text, lookup Variable.generate.key = some text ∧ IsSwitch text false) ∧
    ((read lookup).1.generate = true ↔ lookup Variable.generate.key = none ∨
      ∃ text, lookup Variable.generate.key = some text ∧
        (IsSwitch text true ∨ ∀ setting, ¬ IsSwitch text setting)) ∧
    List.Sublist ((read lookup).2.map Warning.source) lookupOrder ∧
    (∀ source, Warned lookup source ↔
      ∃ text, lookup source.key = some text ∧ ¬ Understood source text) ∧
    ∀ other : String → Option String,
      (other Variable.generate.key = lookup Variable.generate.key →
        (read other).1.generate = (read lookup).1.generate) ∧
      (other Variable.maxBits.key = lookup Variable.maxBits.key →
        (read other).1.maxBits = (read lookup).1.maxBits) ∧
      (other Variable.parallelFrom.key = lookup Variable.parallelFrom.key →
        (read other).1.parallelFrom = (read lookup).1.parallelFrom) := by
  have hgenerate := settles_generate lookup
  have hmaxBits := settles_maxBits lookup
  have hparallelFrom := settles_parallelFrom lookup
  refine ⟨?_, hgenerate, hmaxBits, hparallelFrom, hgenerate.eq_iff Bool.false_ne_true,
    hgenerate.eq_default_iff, sublist_lookupOrder lookup, ?_, ?_⟩
  · rcases hmaxBits.eq_default_or with hdefault | ⟨text, -, -, hwidth⟩
    · exact .inr (.inr hdefault)
    · exact hwidth
  · intro source
    cases source with
    | generate => simpa [Understood] using hgenerate.warned_iff
    | maxBits => simpa [Understood] using hmaxBits.warned_iff
    | parallelFrom => simpa [Understood] using hparallelFrom.warned_iff
  · intro other
    refine ⟨?_, ?_, ?_⟩
    all_goals
      intro hsame
      simp only [read, hsame]

end Options

end ChannelConcat
