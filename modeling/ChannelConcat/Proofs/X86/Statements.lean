import ChannelConcat.Proofs.X86.Numerals

/-!
# Instructions in a listing

What a listing says of an instruction: its mnemonic and its operands, which are registers, places in
memory, immediates and branch targets, with their numbers as values. Statements are read from text
without knowledge of the instructions. Main definitions: `Instr.statement`, `readStatement?`. Main
statement: `readStatement?_text` says that the statement of every instruction is read back.
-/

namespace ChannelConcat.X86

/-- An operand of an instruction in a listing. -/
inductive Operand where
  | register (name : String)
  /-- The memory a number of bytes behind the address in a register. -/
  | memory (base : String) (offset : Nat)
  | immediate (value : Nat)
  /-- The address that a branch goes to. -/
  | target (address : Nat)
  deriving DecidableEq

/-- What a listing says of an instruction. -/
structure Statement where
  mnemonic : String
  operands : List Operand
  deriving DecidableEq

/-! ## The statements of instructions -/

/-- The mnemonic of a clamp. -/
def clampMnemonic : Clamp → String
  | .maxI8 => "vpmaxsb"
  | .maxI32 => "vpmaxsd"
  | .maxF32 => "vmaxps"

/-- What a listing says of an instruction, given the address of the next one. An immediate is
extended to the size of the register that it applies to. -/
def Instr.statement (next : Nat) : Instr → Statement
  | pushRbp => ⟨"push", [.register "rbp"]⟩
  | movRbpRsp => ⟨"mov", [.register "rbp", .register "rsp"]⟩
  | loadRsi => ⟨"mov", [.register "rsi", .memory "rdi" 0]⟩
  | loadRdx => ⟨"mov", [.register "rdx", .memory "rdi" 8]⟩
  | loadR8 => ⟨"mov", [.register "r8", .memory "rdi" 16]⟩
  | clearV0 => ⟨"vpxor", [.register "xmm0", .register "xmm0", .register "xmm0"]⟩
  | clearR9 => ⟨"xor", [.register "r9d", .register "r9d"]⟩
  | loadEax => ⟨"mov", [.register "eax", .memory "rdx" 0]⟩
  | loadRcx => ⟨"mov", [.register "rcx", .memory "rsi" 0]⟩
  | cmp counter bound => ⟨"cmp", [.register counter.text, .immediate bound.toNat]⟩
  | jump condition displacement =>
      ⟨condition.text, [.target (branchTarget next displacement).toNat]⟩
  | loadV1 width => ⟨"vmovups", [.register (registerText width 1), .memory "rcx" 0]⟩
  | clampV1 width clamp =>
      let zeros := Operand.register (registerText width 0)
      let vector := Operand.register (registerText width 1)
      ⟨clampMnemonic clamp, vector ::
        match clamp with
        | .maxI8 | .maxI32 => [vector, zeros]
        | .maxF32 => [zeros, vector]⟩
  | storeV1 width => ⟨"vmovups", [.memory "r8" 0, .register (registerText width 1)]⟩
  | add pointer amount =>
      ⟨"add", [.register pointer.text, .immediate (amount.signExtend 64).toNat]⟩
  | decEax => ⟨"dec", [.register "eax"]⟩
  | incR9 => ⟨"inc", [.register "r9d"]⟩
  | clearUpper => ⟨"vzeroupper", []⟩
  | popRbp => ⟨"pop", [.register "rbp"]⟩
  | ret => ⟨"ret", []⟩

/-! ## Reading -/

/-- What stands in front of a branch target. -/
def shortMark : List Char :=
  ['s', 'h', 'o', 'r', 't', ' ']

/-- The place in memory that the text between brackets denotes. -/
def readMemory? (inner : List Char) : Option Operand :=
  let base := String.ofList (inner.takeWhile (· ≠ '+'))
  match inner.dropWhile (· ≠ '+') with
  | [] => some (.memory base 0)
  | _ :: offset => (readNumber? offset).map (.memory base)

/-- The operand that a text denotes. -/
def readOperand? (text : List Char) : Option Operand :=
  match text with
  | [] => none
  | '[' :: rest => if rest.getLast? = some ']' then readMemory? rest.dropLast else none
  | first :: rest =>
      if first.isDigit then (readNumber? (first :: rest)).map .immediate
      else if shortMark.isPrefixOf (first :: rest) then
        (readNumber? ((first :: rest).drop 6)).map .target
      else some (.register (String.ofList (first :: rest)))

/-- The statement that a text denotes: a mnemonic and, behind a blank, operands with commas between
them. -/
def readStatement? (text : List Char) : Option Statement :=
  let mnemonic := String.ofList (text.takeWhile (· ≠ ' '))
  match text.dropWhile (· ≠ ' ') with
  | [] => some ⟨mnemonic, []⟩
  | _ :: operands => ((operands.splitOn ',').mapM readOperand?).map (⟨mnemonic, ·⟩)

/-! ## Writing -/

namespace Operand

/-- The text of an operand. -/
def chars : Operand → List Char
  | register name => name.toList
  | memory base offset =>
      '[' :: base.toList ++ (if offset = 0 then [] else '+' :: (numberText offset).toList) ++ [']']
  | immediate value => (numberText value).toList
  | target address => shortMark ++ (targetText (BitVec.ofNat 64 address)).toList

end Operand

/-- The text of a statement. -/
def Statement.chars (statement : Statement) : List Char :=
  statement.mnemonic.toList ++
    match statement.operands with
    | [] => []
    | operands => ' ' :: [','].intercalate (operands.map Operand.chars)

namespace Statement

variable {mnemonic : String} {first second third : Operand}

/-- The text of a statement with one operand. -/
theorem chars_one :
    chars ⟨mnemonic, [first]⟩ = mnemonic.toList ++ ' ' :: first.chars := by
  simp [chars, List.intercalate]

/-- The text of a statement with two operands. -/
theorem chars_two :
    chars ⟨mnemonic, [first, second]⟩ =
      mnemonic.toList ++ ' ' :: (first.chars ++ ',' :: second.chars) := by
  simp [chars, List.intercalate]

/-- The text of a statement with three operands. -/
theorem chars_three :
    chars ⟨mnemonic, [first, second, third]⟩ =
      mnemonic.toList ++ ' ' :: (first.chars ++ ',' :: (second.chars ++ ',' :: third.chars)) := by
  simp [chars, List.intercalate]

end Statement

/-- The text of an instruction is that of its statement. -/
theorem toList_text (instr : Instr) (next : Nat) :
    (instr.text next).toList = (instr.statement next).chars := by
  cases instr with
  | clearUpper | ret =>
      simp only [Instr.text, Instr.statement, Statement.chars, List.append_nil]
  | pushRbp | popRbp | decEax | incR9 =>
      simp only [Instr.text, Instr.statement, Statement.chars_one, Operand.chars]
      rfl
  | movRbpRsp | clearR9 =>
      simp only [Instr.text, Instr.statement, Statement.chars_two, Operand.chars]
      rfl
  | loadRsi | loadRdx | loadR8 | loadEax | loadRcx =>
      have height : (numberText 8).toList = ['8'] := by decide +kernel
      have hsixteen : (numberText 16).toList = ['1', '0', 'h'] := by decide +kernel
      simp only [Instr.text, Instr.statement, Statement.chars_two, Operand.chars, height, hsixteen]
      rfl
  | clearV0 =>
      simp only [Instr.text, Instr.statement, Statement.chars_three, Operand.chars]
      rfl
  | cmp counter bound =>
      simp only [Instr.text, Instr.statement, Statement.chars_two, Operand.chars, toString,
        String.toList_append, List.append_assoc]
      rfl
  | jump condition displacement =>
      simp only [Instr.text, Instr.statement, Statement.chars_one, Operand.chars, toString,
        String.toList_append, List.append_assoc, BitVec.ofNat_toNat, BitVec.setWidth_eq]
      rfl
  | loadV1 width | storeV1 width =>
      simp only [Instr.text, Instr.statement, Statement.chars_two, Operand.chars, toString,
        String.toList_append, List.append_assoc]
      rfl
  | clampV1 width clamp =>
      cases clamp with
      | maxI8 | maxI32 | maxF32 =>
          simp only [Instr.text, clampText, Instr.statement, clampMnemonic, Statement.chars_three,
            Operand.chars, toString, String.toList_append, List.append_assoc]
          rfl
  | add pointer amount =>
      simp only [Instr.text, Instr.statement, Statement.chars_two, Operand.chars, toString,
        String.toList_append, List.append_assoc]
      rfl

/-! ## Reading what is written -/

/-- What is written part by part is read part by part. -/
theorem mapM_map_eq_some {α β γ : Type} {write : α → β} {read? : β → Option γ} {result : α → γ}
    {values : List α} (h : ∀ value ∈ values, read? (write value) = some (result value)) :
    (values.map write).mapM read? = some (values.map result) := by
  induction values with
  | nil => rfl
  | cons value values ih =>
      rw [List.map_cons, List.mapM_cons, h value (.head _),
        ih fun other hother => h other (.tail _ hother)]
      rfl

/-- What is in texts with a separator between them is the separator or in one of the texts. -/
theorem mem_of_mem_intercalate {α : Type} {separator value : α} {texts : List (List α)}
    (h : value ∈ [separator].intercalate texts) :
    value = separator ∨ ∃ text ∈ texts, value ∈ text := by
  induction texts with
  | nil => cases h
  | cons first texts ih =>
      cases texts with
      | nil =>
          rw [List.intercalate_singleton] at h
          exact .inr ⟨first, .head _, h⟩
      | cons second texts =>
          rw [List.intercalate_cons_cons, List.mem_append, List.mem_append,
            List.mem_singleton] at h
          rcases h with (hfirst | hseparator) | hrest
          · exact .inr ⟨first, .head _, hfirst⟩
          · exact .inl hseparator
          · exact (ih hrest).imp_right fun ⟨text, htext, hvalue⟩ =>
              ⟨text, .tail _ htext, hvalue⟩

/-- A name begins with a letter and has no characters but letters and digits. -/
def IsName (text : List Char) : Prop :=
  (text.headD ' ').isAlpha = true ∧ ∀ c ∈ text, c.isAlphanum = true

/-- Whether a text is a name is decidable by looking at its characters. -/
instance (text : List Char) : Decidable (IsName text) :=
  decidable_of_iff ((text.headD ' ').isAlpha = true ∧ text.all Char.isAlphanum = true)
    (by rw [IsName, List.all_eq_true])

/-- A letter is no digit. -/
theorem isDigit_of_isAlpha {c : Char} (h : c.isAlpha = true) : c.isDigit = false := by
  refine Bool.eq_false_iff.2 fun hdigit => ?_
  have hnine : c.val ≤ '9'.val := of_decide_eq_true (Bool.and_eq_true_iff.1 hdigit).2
  rcases Bool.or_eq_true_iff.1 h with hupper | hlower
  · have hletter : 'A'.val ≤ c.val := (of_decide_eq_true hupper).1
    exact absurd (UInt32.le_trans hletter hnine) (by decide)
  · have hletter : 'a'.val ≤ c.val := of_decide_eq_true (Bool.and_eq_true_iff.1 hlower).1
    exact absurd (UInt32.le_trans hletter hnine) (by decide)

/-- A name is not empty. -/
theorem IsName.exists_cons {text : List Char} (h : IsName text) :
    ∃ first rest, text = first :: rest ∧ first.isAlpha = true := by
  cases text with
  | nil => exact absurd h.1 (by decide)
  | cons first rest => exact ⟨first, rest, rfl, h.1⟩

/-- A character that is neither a letter nor a digit is not in a name. -/
theorem IsName.ne_of_mem {text : List Char} (h : IsName text) {c other : Char} (hc : c ∈ text)
    (hother : other.isAlphanum = false) : c ≠ other := by
  rintro rfl
  exact Bool.false_ne_true (hother.symm.trans (h.2 c hc))

namespace Operand

/-- Registers have names, and branch targets are addresses of 64 bits. -/
def WellFormed : Operand → Prop
  | register name | memory name _ => IsName name.toList
  | immediate _ => True
  | target address => address < 2 ^ 64

/-- The characters that operands are made of. -/
theorem mem_chars {operand : Operand} (h : operand.WellFormed) {c : Char}
    (hc : c ∈ operand.chars) : c.isAlphanum = true ∨ c ∈ ['[', '+', ']', ' '] := by
  cases operand with
  | register name => exact .inl (h.2 c hc)
  | memory base offset =>
      simp only [chars, List.cons_append, List.mem_append, List.mem_cons, List.not_mem_nil,
        or_false, or_assoc] at hc
      rcases hc with rfl | hbase | hoffset | rfl
      · exact .inr (by decide)
      · exact .inl (h.2 c hbase)
      · split at hoffset
        · cases hoffset
        · rcases List.mem_cons.1 hoffset with rfl | hoffset
          · exact .inr (by decide)
          · exact .inl ((isNumeral_numberText offset).alphanum c hoffset)
      · exact .inr (by decide)
  | immediate value => exact .inl ((isNumeral_numberText value).alphanum c hc)
  | target address =>
      rcases List.mem_append.1 hc with hmark | htarget
      · simp only [shortMark, List.mem_cons, List.not_mem_nil, or_false] at hmark
        rcases hmark with rfl | rfl | rfl | rfl | rfl | rfl <;> decide
      · exact .inl ((isNumeral_targetText _).alphanum c htarget)

/-- The text between the brackets of a place in memory is read back. -/
theorem readMemory?_chars {base : String} (h : IsName base.toList) (offset : Nat) :
    readMemory? (base.toList ++ if offset = 0 then [] else '+' :: (numberText offset).toList) =
      some (.memory base offset) := by
  have hbase : ∀ c ∈ base.toList, decide (c ≠ '+') = true := fun c hc =>
    decide_eq_true (h.ne_of_mem hc (by decide))
  rw [readMemory?, List.takeWhile_append_of_pos hbase, List.dropWhile_append_of_pos hbase]
  by_cases hzero : offset = 0
  · simp [hzero]
  · simp [hzero, readNumber?_numberText]

/-- An operand is read back. -/
theorem readOperand?_chars {operand : Operand} (h : operand.WellFormed) :
    readOperand? operand.chars = some operand := by
  cases operand with
  | register name =>
      obtain ⟨first, rest, hname, hfirst⟩ := IsName.exists_cons h
      have hbracket : first ≠ '[' := by
        rintro rfl
        exact absurd hfirst (by decide)
      have hdigit : first.isDigit = false := isDigit_of_isAlpha hfirst
      have hshort : ¬ shortMark.isPrefixOf (first :: rest) = true := by
        rw [List.isPrefixOf_iff_prefix, ← hname]
        intro hstart
        exact h.ne_of_mem (hstart.subset (List.mem_of_getLast? rfl)) (by decide) rfl
      rw [chars, hname, readOperand?]
      · rw [if_neg (by rw [hdigit]; decide), if_neg hshort, ← hname, String.ofList_toList]
      · exact hbracket
  | memory base offset =>
      rw [chars, List.cons_append, List.cons_append, readOperand?, if_pos List.getLast?_concat,
        List.dropLast_concat, readMemory?_chars h]
  | immediate value =>
      obtain ⟨first, rest, hnumber, hdigit⟩ := (isNumeral_numberText value).digit
      have hbracket : first ≠ '[' := by
        rintro rfl
        exact absurd hdigit (by decide)
      rw [chars, hnumber, readOperand?]
      · rw [if_pos hdigit, ← hnumber, readNumber?_numberText, Option.map_some]
      · exact hbracket
  | target address =>
      have htext := readNumber?_targetText (BitVec.ofNat 64 address)
      rw [BitVec.toNat_ofNat, Nat.mod_eq_of_lt h] at htext
      have hmark : shortMark.isPrefixOf
          (shortMark ++ (targetText (BitVec.ofNat 64 address)).toList) = true :=
        List.isPrefixOf_iff_prefix.2 (List.prefix_append ..)
      have hread : readOperand? (shortMark ++ (targetText (BitVec.ofNat 64 address)).toList) =
          if shortMark.isPrefixOf (shortMark ++ (targetText (BitVec.ofNat 64 address)).toList) then
            (readNumber? (targetText (BitVec.ofNat 64 address)).toList).map .target
          else some (.register (String.ofList
            (shortMark ++ (targetText (BitVec.ofNat 64 address)).toList))) := rfl
      rw [chars, hread, if_pos hmark, htext, Option.map_some]

end Operand

/-- The names in a statement are names, and its operands are well formed. -/
structure Statement.WellFormed (statement : Statement) : Prop where
  mnemonic : IsName statement.mnemonic.toList
  operands : ∀ operand ∈ statement.operands, operand.WellFormed

namespace Statement

variable {statement : Statement}

/-- The characters that statements are made of. -/
theorem mem_chars (h : statement.WellFormed) {c : Char} (hc : c ∈ statement.chars) :
    c.isAlphanum = true ∨ c ∈ ['[', '+', ']', ' ', ','] := by
  rcases List.mem_append.1 hc with hmnemonic | hoperands
  · exact .inl (h.mnemonic.2 c hmnemonic)
  · split at hoperands
    · cases hoperands
    · rcases List.mem_cons.1 hoperands with rfl | hoperands
      · exact .inr (by decide)
      · rcases mem_of_mem_intercalate hoperands with rfl | ⟨chars, hchars, hc⟩
        · exact .inr (by decide)
        · obtain ⟨operand, hoperand, rfl⟩ := List.mem_map.1 hchars
          rcases Operand.mem_chars (h.operands operand hoperand) hc with hword | hother
          · exact .inl hword
          · exact .inr (List.mem_append_left [','] hother)

/-- A statement is read back. -/
theorem readStatement?_chars (h : statement.WellFormed) :
    readStatement? statement.chars = some statement := by
  obtain ⟨mnemonic, operands⟩ := statement
  have hmnemonic : ∀ c ∈ mnemonic.toList, decide (c ≠ ' ') = true := fun c hc =>
    decide_eq_true (h.mnemonic.ne_of_mem hc (by decide))
  rw [readStatement?, chars, List.takeWhile_append_of_pos hmnemonic,
    List.dropWhile_append_of_pos hmnemonic]
  cases operands with
  | nil => simp
  | cons first rest =>
      have hread : ((first :: rest).map Operand.chars).mapM readOperand? =
          some (first :: rest) := by
        have hoperands : ∀ operand ∈ first :: rest,
            readOperand? operand.chars = some (id operand) :=
          fun operand hoperand => Operand.readOperand?_chars (h.operands operand hoperand)
        rw [mapM_map_eq_some hoperands, List.map_id]
      have hsplit : ([','].intercalate ((first :: rest).map Operand.chars)).splitOn ',' =
          (first :: rest).map Operand.chars := by
        refine List.splitOn_intercalate ',' ?_ (by simp)
        intro chars hchars hcomma
        obtain ⟨operand, hoperand, rfl⟩ := List.mem_map.1 hchars
        exact absurd (operand.mem_chars (h.operands operand hoperand) hcomma) (by decide)
      rw [← hsplit] at hread
      simpa using hread

end Statement

/-- The statement of an instruction is well formed. -/
theorem wellFormed_statement (instr : Instr) (next : Nat) : (instr.statement next).WellFormed := by
  have hregister (width : VectorWidth) :
      IsName (registerText width 0).toList ∧ IsName (registerText width 1).toList := by
    cases width <;> decide
  constructor
  case mnemonic =>
    cases instr with
    | jump condition displacement =>
        cases condition <;> simp only [Instr.statement, Condition.text] <;> decide
    | clampV1 width clamp => cases clamp <;> simp only [Instr.statement, clampMnemonic] <;> decide
    | _ =>
        simp only [Instr.statement]
        decide
  case operands =>
    cases instr with
    | jump condition displacement =>
        intro operand hoperand
        rw [List.mem_singleton.1 hoperand]
        exact (branchTarget next displacement).isLt
    | cmp counter bound =>
        cases counter <;> simp +decide [Instr.statement, Operand.WellFormed, Counter.text]
    | add pointer amount =>
        cases pointer <;> simp +decide [Instr.statement, Operand.WellFormed, Pointer.text]
    | clampV1 width clamp => cases clamp <;> simp [Instr.statement, Operand.WellFormed, hregister]
    | _ => simp +decide [Instr.statement, Operand.WellFormed, hregister]

/-- The statement of an instruction is read back from the text of the instruction. -/
theorem readStatement?_text (instr : Instr) (next : Nat) :
    readStatement? (instr.text next).toList = some (instr.statement next) := by
  rw [toList_text, Statement.readStatement?_chars (wellFormed_statement instr next)]

/-- The text of an instruction has no line feed. -/
theorem lineFeed_notMem_text (instr : Instr) (next : Nat) : '\n' ∉ (instr.text next).toList := by
  rw [toList_text]
  intro h
  exact absurd (Statement.mem_chars (wellFormed_statement instr next) h) (by decide)

end ChannelConcat.X86
