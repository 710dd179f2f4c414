import ChannelConcat.X86.Step
import Mathlib.Algebra.Ring.Nat

/-!
# Fetching encoded instructions

The bytes of an instruction are read back as that instruction, whatever bytes follow it. A machine
whose position is the number of bytes in front of an instruction therefore fetches that instruction
next. Main statements: `decode?_encode`, `decode?_drop_encode`, `fetch_encode`.
-/

namespace ChannelConcat.X86

/-- The bytes of one instruction come before those of the next. -/
theorem encode_cons (instr : Instr) (instrs : List Instr) :
    encode (instr :: instrs) = instr.encode ++ encode instrs :=
  rfl

/-- The bytes of two sequences of instructions follow each other. -/
theorem encode_append (first second : List Instr) :
    encode (first ++ second) = encode first ++ encode second :=
  List.flatMap_append

/-- A word that fits into a byte is restored by sign extension. -/
theorem signExtend_of_fitsByte {immediate : BitVec 32} (h : fitsByte immediate = true) :
    (immediate.setWidth 8).signExtend 32 = immediate :=
  of_decide_eq_true h

/-- The four bytes of an immediate are read back as the immediate. -/
theorem ofBytes_dword (immediate : BitVec 32) : Word.ofBytes 4 (dword immediate) = immediate :=
  Word.ofBytes_toBytes 4 immediate

/-- An addition is read back, with an immediate of either size. -/
theorem decode?_encode_add (pointer : Pointer) (amount : BitVec 32) (rest : List Byte) :
    decode? ((Instr.add pointer amount).encode ++ rest) =
      some (.add pointer amount, (Instr.add pointer amount).encode.length) := by
  by_cases h : fitsByte amount = true
  · have hread : decode? (pointer.addOpening byteOpcode ++ [amount.setWidth 8] ++ rest) =
        some (.add pointer ((amount.setWidth 8).signExtend 32),
          (pointer.addOpening byteOpcode ++ [amount.setWidth 8]).length) := by
      cases pointer <;> rfl
    simpa only [Instr.encode, if_pos h, signExtend_of_fitsByte h] using hread
  · have hread : decode? (pointer.addOpening dwordOpcode ++ dword amount ++ rest) =
        some (.add pointer (Word.ofBytes 4 (dword amount)),
          (pointer.addOpening dwordOpcode ++ dword amount).length) := by
      cases pointer <;> rfl
    simpa only [Instr.encode, if_neg h, ofBytes_dword] using hread

/-- A comparison is read back; only that of the input counter has two sizes of immediate. -/
theorem decode?_encode_cmp (counter : Counter) (bound : BitVec 32) (rest : List Byte) :
    decode? ((Instr.cmp counter bound).encode ++ rest) =
      some (.cmp counter bound, (Instr.cmp counter bound).encode.length) := by
  cases counter with
  | eax =>
      have hread : decode? (0x3D :: dword bound ++ rest) =
          some (.cmp .eax (Word.ofBytes 4 (dword bound)), (0x3D :: dword bound).length) := rfl
      simpa only [Instr.encode, ofBytes_dword] using hread
  | r9d =>
      by_cases h : fitsByte bound = true
      · have hread : decode? (compareR9Opening byteOpcode ++ [bound.setWidth 8] ++ rest) =
            some (.cmp .r9d ((bound.setWidth 8).signExtend 32),
              (compareR9Opening byteOpcode ++ [bound.setWidth 8]).length) := rfl
        simpa only [Instr.encode, if_pos h, signExtend_of_fitsByte h] using hread
      · have hread : decode? (compareR9Opening dwordOpcode ++ dword bound ++ rest) =
            some (.cmp .r9d (Word.ofBytes 4 (dword bound)),
              (compareR9Opening dwordOpcode ++ dword bound).length) := rfl
        simpa only [Instr.encode, if_neg h, ofBytes_dword] using hread

/-- The bytes of an instruction are read back as that instruction, whatever follows them. -/
theorem decode?_encode (instr : Instr) (rest : List Byte) :
    decode? (instr.encode ++ rest) = some (instr, instr.encode.length) := by
  cases instr with
  | add pointer amount => exact decode?_encode_add pointer amount rest
  | cmp counter bound => exact decode?_encode_cmp counter bound rest
  | jump condition displacement => cases condition <;> rfl
  | loadV1 width | storeV1 width => cases width <;> rfl
  | clampV1 width clamp => cases width <;> cases clamp <;> rfl
  | _ => rfl

variable {before : List Instr} {state : State}

/-- The instruction read behind the bytes of others is the one whose bytes start there. -/
theorem decode?_drop_encode (before : List Instr) (instr : Instr) (after : List Instr) :
    decode? ((encode (before ++ instr :: after)).drop (encode before).length) =
      some (instr, instr.encode.length) := by
  rw [encode_append, encode_cons, List.drop_left, decode?_encode]

/-- The instruction fetched behind a number of bytes is the one whose bytes start there. -/
theorem fetch_encode (instr : Instr) (after : List Instr)
    (h : state.position = (encode before).length) :
    fetch (encode (before ++ instr :: after)) state = some (instr, instr.encode.length) := by
  rw [fetch, h, decode?_drop_encode]

end ChannelConcat.X86
