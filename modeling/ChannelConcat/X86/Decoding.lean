import ChannelConcat.X86.Encoding

/-!
# Reading machine code

The reading of one instruction from the front of a byte sequence, by a table of forms. A form is a
fixed opening, followed by nothing, by one byte or by four bytes.
-/

namespace ChannelConcat.X86

/-- How the bytes of a kind of instruction look. -/
inductive Form where
  /-- One instruction with the bytes of its own encoding. -/
  | fixed (instr : Instr)
  /-- An opening and an operand of one byte. -/
  | byte (opening : List Byte) (build : Byte → Instr)
  /-- An opening and an operand of four bytes. -/
  | dword (opening : List Byte) (build : BitVec 32 → Instr)

/-- The bytes after an opening, if the sequence starts with it. -/
def afterOpening? (opening code : List Byte) : Option (List Byte) :=
  if opening.isPrefixOf code then some (code.drop opening.length) else none

/-- The instruction of this form at the front of a byte sequence, with its length. -/
def Form.read? : Form → List Byte → Option (Instr × Nat)
  | fixed instr, code => (afterOpening? instr.encode code).map fun _ => (instr, instr.encode.length)
  | byte opening build, code =>
      match afterOpening? opening code with
      | some (operand :: _) => some (build operand, opening.length + 1)
      | _ => none
  | dword opening build, code =>
      match afterOpening? opening code with
      | some (b0 :: b1 :: b2 :: b3 :: _) =>
          some (build (Word.ofBytes 4 [b0, b1, b2, b3]), opening.length + 4)
      | _ => none

/-- The vector parts. -/
def widths : List VectorWidth :=
  [.xmm, .ymm, .zmm]

/-- The clamps. -/
def clamps : List Clamp :=
  [.maxI8, .maxI32, .maxF32]

/-- The pointers that can be advanced. -/
def pointers : List Pointer :=
  [.rcx, .r8, .rsi, .rdx]

/-- The branch conditions. -/
def conditions : List Condition :=
  [.lessOrEqual, .greater, .less]

/-- The instructions without an operand. -/
def plainInstrs : List Instr :=
  [.pushRbp, .movRbpRsp, .loadRsi, .loadRdx, .loadR8, .clearV0, .clearR9, .loadEax, .loadRcx,
    .decEax, .incR9, .clearUpper, .popRbp, .ret] ++
  widths.map .loadV1 ++ widths.map .storeV1 ++
  widths.flatMap fun width => clamps.map (.clampV1 width)

/-- The forms of all instructions. -/
def forms : List Form :=
  plainInstrs.map .fixed ++
  pointers.map (fun pointer =>
    .byte (pointer.addOpening byteOpcode) fun operand => .add pointer (operand.signExtend 32)) ++
  pointers.map (fun pointer => .dword (pointer.addOpening dwordOpcode) (.add pointer)) ++
  [.byte (compareR9Opening byteOpcode) fun operand => .cmp .r9d (operand.signExtend 32),
    .dword (compareR9Opening dwordOpcode) (.cmp .r9d),
    .dword [0x3D] (.cmp .eax)] ++
  conditions.map fun condition => .byte [condition.opcode] (.jump condition)

/-- The instruction at the front of a byte sequence, with its length; `none` if the sequence starts
with no whole instruction. -/
def decode? (code : List Byte) : Option (Instr × Nat) :=
  forms.findSome? fun form => form.read? code

end ChannelConcat.X86
