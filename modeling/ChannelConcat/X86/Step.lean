import ChannelConcat.X86.Decoding
import ChannelConcat.X86.State

/-!
# Running machine code

The meaning of each instruction as a change of the machine state, and the run of a code from a state
until it comes to a return. Main definitions: `Instr.exec`, `step`, `run`.
-/

namespace ChannelConcat.X86

namespace Registers

/-- The address in a pointer register. -/
def pointer (registers : Registers) : Pointer → Address
  | .rcx => registers.rcx
  | .r8 => registers.r8
  | .rsi => registers.rsi
  | .rdx => registers.rdx

/-- Replace the address in a pointer register. -/
def setPointer (registers : Registers) (pointer : Pointer) (address : Address) : Registers :=
  match pointer with
  | .rcx => { registers with rcx := address }
  | .r8 => { registers with r8 := address }
  | .rsi => { registers with rsi := address }
  | .rdx => { registers with rdx := address }

/-- The low four bytes of a counter register. -/
def counter (registers : Registers) : Counter → BitVec 32
  | .eax => registers.rax.setWidth 32
  | .r9d => registers.r9.setWidth 32

end Registers

/-- A vector register after an instruction on its low part: the rest is cleared. -/
def extended (bytes : List Byte) : List Byte :=
  bytes ++ List.replicate (vectorBytes - bytes.length) 0

/-- The word of eight bytes at an address. -/
def Memory.loadAddress (memory : Memory) (address : Address) : Address :=
  Word.ofBytes 8 (memory.load address 8)

/-- What an instruction does to the state, given the position behind it. A return leaves the routine
and has no effect inside it. -/
def Instr.exec (next : Nat) (state : State) : Instr → State
  | pushRbp =>
      let top := state.registers.rsp - 8
      { state with
        registers := { state.registers with rsp := top }
        memory := state.memory.store top (Word.toBytes 8 state.registers.rbp)
        position := next }
  | movRbpRsp =>
      { state with
        registers := { state.registers with rbp := state.registers.rsp }
        position := next }
  | loadRsi =>
      { state with
        registers := { state.registers with
          rsi := state.memory.loadAddress state.registers.rdi }
        position := next }
  | loadRdx =>
      { state with
        registers := { state.registers with
          rdx := state.memory.loadAddress (state.registers.rdi + 8) }
        position := next }
  | loadR8 =>
      { state with
        registers := { state.registers with
          r8 := state.memory.loadAddress (state.registers.rdi + 16) }
        position := next }
  | clearV0 => { state with v0 := List.replicate vectorBytes 0, position := next }
  | clearR9 =>
      { state with
        registers := { state.registers with r9 := 0 }
        flags := ⟨true, false, false⟩
        position := next }
  | loadEax =>
      let word : BitVec 32 := Word.ofBytes 4 (state.memory.load state.registers.rdx 4)
      { state with
        registers := { state.registers with rax := word.setWidth 64 }
        position := next }
  | loadRcx =>
      { state with
        registers := { state.registers with
          rcx := state.memory.loadAddress state.registers.rsi }
        position := next }
  | cmp counter bound =>
      { state with
        flags := .ofSub (state.registers.counter counter) bound
        position := next }
  | jump condition displacement =>
      { state with
        position := if condition.holds state.flags then (branchTarget next displacement).toNat
          else next }
  | loadV1 width =>
      { state with
        v1 := extended (state.memory.load state.registers.rcx width.bytes)
        position := next }
  | clampV1 width clamp =>
      { state with
        v1 := extended (clamp.apply (state.v0.take width.bytes) (state.v1.take width.bytes))
        position := next }
  | storeV1 width =>
      { state with
        memory := state.memory.store state.registers.r8 (state.v1.take width.bytes)
        position := next }
  | add pointer amount =>
      let address := state.registers.pointer pointer
      { state with
        registers := state.registers.setPointer pointer (address + amount.signExtend 64)
        flags := .ofAdd address (amount.signExtend 64)
        position := next }
  | decEax =>
      let count := state.registers.counter .eax
      { state with
        registers := { state.registers with rax := (count - 1).setWidth 64 }
        flags := .ofSub count 1
        position := next }
  | incR9 =>
      let index := state.registers.counter .r9d
      { state with
        registers := { state.registers with r9 := (index + 1).setWidth 64 }
        flags := .ofAdd index 1
        position := next }
  | clearUpper =>
      { state with
        v0 := extended (state.v0.take 16)
        v1 := extended (state.v1.take 16)
        position := next }
  | popRbp =>
      { state with
        registers := { state.registers with
          rbp := state.memory.loadAddress state.registers.rsp
          rsp := state.registers.rsp + 8 }
        position := next }
  | ret => state

/-- The instruction at the position of a state, with its length. -/
def fetch (code : List Byte) (state : State) : Option (Instr × Nat) :=
  decode? (code.drop state.position)

/-- One step of the code; there is none from a return, nor where no instruction can be read. -/
def step (code : List Byte) (state : State) : Option State :=
  match fetch code state with
  | none | some (.ret, _) => none
  | some (instr, size) => some (instr.exec (state.position + size) state)

/-- The state has come to a return. -/
def AtReturn (code : List Byte) (state : State) : Prop :=
  fetch code state = some (.ret, Instr.ret.encode.length)

/-- Whether a state has come to a return is decidable by reading the instruction there. -/
instance (code : List Byte) (state : State) : Decidable (AtReturn code state) :=
  inferInstanceAs (Decidable (_ = _))

/-- The state after at most this many steps; a state without a step stays. -/
def run (code : List Byte) : Nat → State → State
  | 0, state => state
  | fuel + 1, state =>
      match step code state with
      | none => state
      | some following => run code fuel following

/-- Running `first + second` steps is running `first` steps and then `second` more. -/
theorem run_add (code : List Byte) (first second : Nat) (state : State) :
    run code (first + second) state = run code second (run code first state) := by
  induction first generalizing state with
  | zero => simp [run]
  | succ first ih =>
      simp only [Nat.succ_add, run]
      cases hstep : step code state with
      | none => cases second <;> simp [run, hstep]
      | some following => exact ih following

end ChannelConcat.X86
