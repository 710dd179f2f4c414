import ChannelConcat.Descriptor
import ChannelConcat.X86.Step

/-!
# Calls on the machine

A call places its descriptor, its tables and its buffers in the memory of the machine, each in a
window of its own, and enters the routine with the address of the descriptor. Main definitions:
`Call.memory`, `Call.entryState`.
-/

namespace ChannelConcat

open X86

/-- The buffers of one call. -/
structure Call where
  sources : List (Array Byte)
  counts : List (BitVec 32)
  target : Array Byte

namespace Call

/-- The number of bytes of a window, the part of memory that is set aside for one buffer. -/
def windowBytes : Nat :=
  0x10000000000

/-- What a window is set aside for. -/
inductive Window where
  | descriptor
  | sourceTable
  | countTable
  | target
  | stack
  | source (input : Nat)
  deriving DecidableEq

namespace Window

/-- The place of a window in memory. The first place of all stays free. -/
def number : Window → Nat
  | descriptor => 1
  | sourceTable => 2
  | countTable => 3
  | target => 4
  | stack => 5
  | source input => 6 + input

/-- The address at which a window starts. -/
def address (window : Window) : Address :=
  BitVec.ofNat 64 (window.number * windowBytes)

end Window

/-- The descriptor of a call. -/
def descriptor : Descriptor :=
  ⟨Window.sourceTable.address, Window.countTable.address, Window.target.address⟩

/-- The table of source addresses of a call. -/
def sourceTable (call : Call) : List Byte :=
  (List.range call.sources.length).flatMap fun i => Word.toBytes 8 (Window.source i).address

/-- The table of block counts of a call. -/
def countTable (call : Call) : List Byte :=
  call.counts.flatMap (Word.toBytes 4)

/-- The contents of all windows, in the order of their places. -/
def contents (call : Call) : Array (Array Byte) :=
  #[#[], descriptor.bytes.toArray, call.sourceTable.toArray, call.countTable.toArray, call.target,
    #[]] ++ call.sources.toArray

/-- The memory with all buffers of a call at the fronts of their windows, and zero elsewhere. -/
def memory (call : Call) : Memory :=
  let contents := call.contents
  fun address =>
    (contents.getD (address.toNat / windowBytes) #[]).getD (address.toNat % windowBytes) 0

/-- The registers at the entry of a routine: the address of the descriptor, and a stack pointer in
the middle of its window. All others are zero. -/
def registers : Registers where
  rax := 0
  rbx := 0
  rcx := 0
  rdx := 0
  rsi := 0
  rdi := Window.descriptor.address
  rbp := 0
  rsp := Window.stack.address + BitVec.ofNat 64 (windowBytes / 2)
  r8 := 0
  r9 := 0
  r10 := 0
  r11 := 0
  r12 := 0
  r13 := 0
  r14 := 0
  r15 := 0

/-- The state at the entry of a routine. -/
def entryState (call : Call) : State where
  registers := registers
  flags := ⟨false, false, false⟩
  v0 := List.replicate vectorBytes 0
  v1 := List.replicate vectorBytes 0
  memory := call.memory
  position := 0

end Call

end ChannelConcat
