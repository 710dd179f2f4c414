import ChannelConcat.X86.Instr

/-!
# Machine code of instructions

The bytes of each instruction. Additions and the comparison of the input counter take their
immediate as one sign-extended byte where it fits and as four bytes otherwise; every other form has
a fixed length.
-/

namespace ChannelConcat.X86

/-- The immediate is the sign extension of its lowest byte. -/
def fitsByte (immediate : BitVec 32) : Bool :=
  (immediate.setWidth 8).signExtend 32 = immediate

/-- The four bytes of an immediate, the least significant first. -/
def dword (immediate : BitVec 32) : List Byte :=
  Word.toBytes 4 immediate

namespace Pointer

/-- What precedes the immediate of an addition to a pointer; the second byte tells the length of the
immediate. -/
def addOpening (opcode : Byte) : Pointer → List Byte
  | rcx => [0x48, opcode, 0xC1]
  | r8 => [0x49, opcode, 0xC0]
  | rsi => [0x48, opcode, 0xC6]
  | rdx => [0x48, opcode, 0xC2]

end Pointer

/-- The opcode of an arithmetic instruction with an immediate of one byte. -/
def byteOpcode : Byte :=
  0x83

/-- The opcode of an arithmetic instruction with an immediate of four bytes. -/
def dwordOpcode : Byte :=
  0x81

/-- What precedes the immediate of a comparison of the input counter. -/
def compareR9Opening (opcode : Byte) : List Byte :=
  [0x41, opcode, 0xF9]

/-- The opcode of a branch with a displacement of one byte. -/
def Condition.opcode : Condition → Byte
  | lessOrEqual => 0x7E
  | greater => 0x7F
  | less => 0x7C

/-- The bytes of a vector load. -/
def loadBytes : VectorWidth → List Byte
  | .xmm => [0xC5, 0xF8, 0x10, 0x09]
  | .ymm => [0xC5, 0xFC, 0x10, 0x09]
  | .zmm => [0x62, 0xF1, 0x7C, 0x48, 0x10, 0x09]

/-- The bytes of a vector store. -/
def storeBytes : VectorWidth → List Byte
  | .xmm => [0xC4, 0xC1, 0x78, 0x11, 0x08]
  | .ymm => [0xC4, 0xC1, 0x7C, 0x11, 0x08]
  | .zmm => [0x62, 0xD1, 0x7C, 0x48, 0x11, 0x08]

/-- The bytes of a vector clamp. -/
def clampBytes : VectorWidth → Clamp → List Byte
  | .xmm, .maxI8 => [0xC4, 0xE2, 0x71, 0x3C, 0xC8]
  | .ymm, .maxI8 => [0xC4, 0xE2, 0x75, 0x3C, 0xC8]
  | .zmm, .maxI8 => [0x62, 0xF2, 0x75, 0x48, 0x3C, 0xC8]
  | .xmm, .maxI32 => [0xC4, 0xE2, 0x71, 0x3D, 0xC8]
  | .ymm, .maxI32 => [0xC4, 0xE2, 0x75, 0x3D, 0xC8]
  | .zmm, .maxI32 => [0x62, 0xF2, 0x75, 0x48, 0x3D, 0xC8]
  | .xmm, .maxF32 => [0xC5, 0xF8, 0x5F, 0xC9]
  | .ymm, .maxF32 => [0xC5, 0xFC, 0x5F, 0xC9]
  | .zmm, .maxF32 => [0x62, 0xF1, 0x7C, 0x48, 0x5F, 0xC9]

/-- The bytes of an instruction. -/
def Instr.encode : Instr → List Byte
  | pushRbp => [0x55]
  | movRbpRsp => [0x48, 0x89, 0xE5]
  | loadRsi => [0x48, 0x8B, 0x37]
  | loadRdx => [0x48, 0x8B, 0x57, 0x08]
  | loadR8 => [0x4C, 0x8B, 0x47, 0x10]
  | clearV0 => [0xC5, 0xF9, 0xEF, 0xC0]
  | clearR9 => [0x45, 0x31, 0xC9]
  | loadEax => [0x8B, 0x02]
  | loadRcx => [0x48, 0x8B, 0x0E]
  | cmp .eax bound => 0x3D :: dword bound
  | cmp .r9d bound =>
      if fitsByte bound then compareR9Opening byteOpcode ++ [bound.setWidth 8]
      else compareR9Opening dwordOpcode ++ dword bound
  | jump condition displacement => [condition.opcode, displacement]
  | loadV1 width => loadBytes width
  | clampV1 width clamp => clampBytes width clamp
  | storeV1 width => storeBytes width
  | add pointer amount =>
      if fitsByte amount then pointer.addOpening byteOpcode ++ [amount.setWidth 8]
      else pointer.addOpening dwordOpcode ++ dword amount
  | decEax => [0xFF, 0xC8]
  | incR9 => [0x41, 0xFF, 0xC1]
  | clearUpper => [0xC5, 0xF8, 0x77]
  | popRbp => [0x5D]
  | ret => [0xC3]

/-- The bytes of a sequence of instructions. -/
def encode (instrs : List Instr) : List Byte :=
  instrs.flatMap Instr.encode

/-- Every instruction has at least one byte. -/
theorem Instr.encode_ne_nil (instr : Instr) : instr.encode ≠ [] := by
  cases instr with
  | cmp counter bound =>
      cases counter with
      | eax => simp [encode]
      | r9d => simp only [encode]; split <;> simp [compareR9Opening]
  | add pointer amount =>
      cases pointer <;> simp only [encode] <;> split <;> simp [Pointer.addOpening]
  | loadV1 width => cases width <;> simp [encode, loadBytes]
  | storeV1 width => cases width <;> simp [encode, storeBytes]
  | clampV1 width clamp => cases width <;> cases clamp <;> simp [encode, clampBytes]
  | _ => simp [encode]

end ChannelConcat.X86
