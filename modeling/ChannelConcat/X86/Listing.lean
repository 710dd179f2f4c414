import ChannelConcat.X86.Decoding

/-!
# Listings

The text of machine code, one line per instruction: the address, two blanks and the instruction in
Intel syntax. Main definitions: `lines`, `listing`.
-/

namespace ChannelConcat.X86

/-- The digits of a number to base 16, in capital letters. -/
def hexDigits (value : Nat) : List Char :=
  (Nat.toDigits 16 value).map Char.toUpper

/-- Fill up with zeros on the left. -/
def zeroPadded (width : Nat) (digits : List Char) : List Char :=
  List.replicate (width - digits.length) '0' ++ digits

/-- Hexadecimal digits as a number in the listing: marked by a final `h`, with a zero in front if
the first digit is a letter. -/
def hexText (digits : List Char) : String :=
  let shown := if (digits.headD '0').isAlpha then '0' :: digits else digits
  String.ofList shown ++ "h"

/-- A number in the listing: in decimal below ten, and in hexadecimal otherwise. -/
def numberText (value : Nat) : String :=
  if value < 10 then toString value else hexText (hexDigits value)

/-- A branch target in the listing: in decimal below ten, and with sixteen hexadecimal digits
otherwise. -/
def targetText (target : BitVec 64) : String :=
  if target.toNat < 10 then toString target.toNat
  else hexText (zeroPadded 16 (hexDigits target.toNat))

/-- The name of a vector register: the name of the part, then the number of the register. -/
def registerText (width : VectorWidth) (number : Nat) : String :=
  match width with
  | .xmm => s!"xmm{number}"
  | .ymm => s!"ymm{number}"
  | .zmm => s!"zmm{number}"

/-- The name of a pointer register. -/
def Pointer.text : Pointer → String
  | rcx => "rcx"
  | r8 => "r8"
  | rsi => "rsi"
  | rdx => "rdx"

/-- The name of a counter register. -/
def Counter.text : Counter → String
  | eax => "eax"
  | r9d => "r9d"

/-- The mnemonic of a branch. -/
def Condition.text : Condition → String
  | lessOrEqual => "jle"
  | greater => "jg"
  | less => "jl"

/-- The clamp of vector register 1 against register 0. The zeros are the second source of an integer
maximum and the first source of the maximum of single-precision numbers. -/
def clampText (width : VectorWidth) (clamp : Clamp) : String :=
  let zeros := registerText width 0
  let vector := registerText width 1
  match clamp with
  | .maxI8 => s!"vpmaxsb {vector},{vector},{zeros}"
  | .maxI32 => s!"vpmaxsd {vector},{vector},{zeros}"
  | .maxF32 => s!"vmaxps {vector},{zeros},{vector}"

/-- The text of an instruction, given the address of the next one. Immediates are sign-extended to
the size of the register they apply to. -/
def Instr.text (next : Nat) : Instr → String
  | pushRbp => "push rbp"
  | movRbpRsp => "mov rbp,rsp"
  | loadRsi => "mov rsi,[rdi]"
  | loadRdx => "mov rdx,[rdi+8]"
  | loadR8 => "mov r8,[rdi+10h]"
  | clearV0 => "vpxor xmm0,xmm0,xmm0"
  | clearR9 => "xor r9d,r9d"
  | loadEax => "mov eax,[rdx]"
  | loadRcx => "mov rcx,[rsi]"
  | cmp counter bound => s!"cmp {counter.text},{numberText bound.toNat}"
  | jump condition displacement =>
      s!"{condition.text} short {targetText (branchTarget next displacement)}"
  | loadV1 width => s!"vmovups {registerText width 1},[rcx]"
  | clampV1 width clamp => clampText width clamp
  | storeV1 width => s!"vmovups [r8],{registerText width 1}"
  | add pointer amount => s!"add {pointer.text},{numberText (amount.signExtend 64).toNat}"
  | decEax => "dec eax"
  | incR9 => "inc r9d"
  | clearUpper => "vzeroupper"
  | popRbp => "pop rbp"
  | ret => "ret"

/-- One line of a listing: where it starts, how many bytes it stands for, and the instruction, which
is missing where the bytes are no whole instruction. -/
structure Line where
  address : Nat
  size : Nat
  instr? : Option Instr
  deriving DecidableEq

/-- The lines of code that starts at an address, at most as many as the fuel. A line without an
instruction takes all bytes that are left. -/
def linesFrom : (fuel address : Nat) → List Byte → List Line
  | 0, _, _ => []
  | _ + 1, _, [] => []
  | fuel + 1, address, code =>
      match decode? code with
      | some (instr, size) =>
          ⟨address, size, some instr⟩ :: linesFrom fuel (address + size) (code.drop size)
      | none => [⟨address, code.length, none⟩]

/-- The lines of code from address zero. There are no more lines than bytes, since every line stands
for at least one byte. -/
def lines (code : List Byte) : List Line :=
  linesFrom code.length 0 code

/-- The text of a line. -/
def Line.text (line : Line) : String :=
  String.ofList (zeroPadded 4 (Nat.toDigits 16 line.address)) ++ "  " ++
    match line.instr? with
    | some instr => instr.text (line.address + line.size)
    | none => "(bad)"

/-- The listing of machine code: its lines, each ended by a line feed. -/
def listing (code : List Byte) : String :=
  String.join ((lines code).map fun line => line.text ++ "\n")

end ChannelConcat.X86
