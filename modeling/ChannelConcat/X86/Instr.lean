import ChannelConcat.Selection

/-!
# The instructions of copy routines

The instruction forms that copy routines are made of. Each form fixes its registers; what varies is
the vector part, the clamp, the pointer or counter, an immediate of four bytes and a branch
displacement of one byte.
-/

namespace ChannelConcat.X86

/-- A register that holds an address and is advanced by addition. -/
inductive Pointer where
  | rcx
  | r8
  | rsi
  | rdx
  deriving DecidableEq

/-- A register that is compared with an immediate. -/
inductive Counter where
  | eax
  | r9d
  deriving DecidableEq

/-- The condition of a branch, as a signed comparison. -/
inductive Condition where
  | lessOrEqual
  | greater
  | less
  deriving DecidableEq

/-- An instruction of a copy routine. Vector instructions load, clamp and store vector register 1;
register 0 holds the zeros to clamp against. -/
inductive Instr where
  | pushRbp
  | movRbpRsp
  /-- Load `rsi` from the first field of the descriptor at `rdi`. -/
  | loadRsi
  /-- Load `rdx` from the second field of the descriptor at `rdi`. -/
  | loadRdx
  /-- Load `r8` from the third field of the descriptor at `rdi`. -/
  | loadR8
  /-- Clear vector register 0 over its whole width. -/
  | clearV0
  | clearR9
  /-- Load `eax` from memory at `rdx`. -/
  | loadEax
  /-- Load `rcx` from memory at `rsi`. -/
  | loadRcx
  | cmp (counter : Counter) (bound : BitVec 32)
  | jump (condition : Condition) (displacement : BitVec 8)
  /-- Load vector register 1 from memory at `rcx`. -/
  | loadV1 (width : VectorWidth)
  | clampV1 (width : VectorWidth) (clamp : Clamp)
  /-- Store vector register 1 to memory at `r8`. -/
  | storeV1 (width : VectorWidth)
  | add (pointer : Pointer) (amount : BitVec 32)
  | decEax
  | incR9
  /-- Clear all vector registers above their low 16 bytes. -/
  | clearUpper
  | popRbp
  | ret
  deriving DecidableEq

/-- The address that a branch goes to, from the address of the next instruction. -/
def branchTarget (next : Nat) (displacement : BitVec 8) : BitVec 64 :=
  BitVec.ofNat 64 next + displacement.signExtend 64

end ChannelConcat.X86
