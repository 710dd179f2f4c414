import ChannelConcat.X86.Instr

/-!
# Machine states

What the instructions of copy routines read and change: the general registers, three of the flags,
two vector registers, memory and the position in the code. The code is no part of the memory. Main
definitions: `Memory.load`, `Memory.store`, `State`.
-/

namespace ChannelConcat.X86

/-- The address of a byte. Addresses wrap around at their end. -/
abbrev Address := BitVec 64

/-- The contents of memory: one byte at every address. -/
abbrev Memory := Address → Byte

namespace Memory

/-- The bytes from an address on. -/
def load (memory : Memory) (address : Address) (count : Nat) : List Byte :=
  (List.range count).map fun k => memory (address + BitVec.ofNat 64 k)

/-- Replace the bytes from an address on. -/
def store (memory : Memory) (address : Address) (bytes : List Byte) : Memory :=
  fun a => (bytes[(a - address).toNat]?).getD (memory a)

/-- A load gives as many bytes as it is asked for. -/
@[simp] theorem length_load (memory : Memory) (address : Address) (count : Nat) :
    (memory.load address count).length = count := by
  simp [load]

/-- A byte that a store covers is the byte stored there. -/
theorem store_inside {memory : Memory} {address : Address} {bytes : List Byte} {k : Nat}
    (hk : k < bytes.length) (hsize : bytes.length ≤ 0x10000000000000000) :
    memory.store address bytes (address + BitVec.ofNat 64 k) = bytes[k] := by
  have hoffset : (address + BitVec.ofNat 64 k - address).toNat = k := by
    rw [BitVec.add_comm, BitVec.add_sub_cancel, BitVec.toNat_ofNat, Nat.mod_eq_of_lt (by omega)]
  simp only [store, hoffset, List.getElem?_eq_getElem hk, Option.getD_some]

/-- A byte that a store does not cover stays as it was. -/
theorem store_outside {memory : Memory} {address a : Address} {bytes : List Byte}
    (h : bytes.length ≤ (a - address).toNat) : memory.store address bytes a = memory a := by
  simp only [store, List.getElem?_eq_none h, Option.getD_none]

end Memory

/-- The general registers. -/
structure Registers where
  rax : BitVec 64
  rbx : BitVec 64
  rcx : BitVec 64
  rdx : BitVec 64
  rsi : BitVec 64
  rdi : BitVec 64
  rbp : BitVec 64
  rsp : BitVec 64
  r8 : BitVec 64
  r9 : BitVec 64
  r10 : BitVec 64
  r11 : BitVec 64
  r12 : BitVec 64
  r13 : BitVec 64
  r14 : BitVec 64
  r15 : BitVec 64
  deriving DecidableEq

/-- The flags that branches test. -/
structure Flags where
  zero : Bool
  sign : Bool
  overflow : Bool
  deriving DecidableEq

namespace Flags

/-- The flags after the sum of two words. -/
def ofAdd {n : Nat} (a b : BitVec n) : Flags :=
  ⟨a + b = 0, (a + b).msb, a.saddOverflow b⟩

/-- The flags after the difference of two words. -/
def ofSub {n : Nat} (a b : BitVec n) : Flags :=
  ⟨a - b = 0, (a - b).msb, a.ssubOverflow b⟩

end Flags

/-- The condition holds of the flags. -/
def Condition.holds (flags : Flags) : Condition → Bool
  | lessOrEqual => flags.zero || flags.sign != flags.overflow
  | greater => !flags.zero && flags.sign == flags.overflow
  | less => flags.sign != flags.overflow

/-- The number of bytes of a whole vector register. -/
def vectorBytes : Nat :=
  64

/-- A state of the machine. -/
structure State where
  registers : Registers
  flags : Flags
  /-- Vector register 0, the lowest byte first. -/
  v0 : List Byte
  /-- Vector register 1, the lowest byte first. -/
  v1 : List Byte
  memory : Memory
  /-- The offset of the next instruction in the code. -/
  position : Nat

end ChannelConcat.X86
