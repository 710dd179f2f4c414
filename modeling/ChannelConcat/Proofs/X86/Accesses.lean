import ChannelConcat.Proofs.X86.Region
import ChannelConcat.X86.Step

/-!
# Vector accesses

The vector loads and stores that a machine makes on its way, in order. The machine counts the inputs
in `r9d`, so each access is known to be for one of them. Main definitions: `Instr.access?`,
`accesses`, `Instr.written?`. Main statements: `Instr.memory_exec_of_not_written` says that an
instruction changes no byte outside what it writes, and `Instr.exists_access_of_written` that, apart
from keeping the frame pointer, this is what it accesses for a store.
-/

namespace ChannelConcat.X86

/-- Whether bytes are read or written. -/
inductive AccessKind where
  | load
  | store
  deriving DecidableEq

/-- An access of a vector instruction: the number of the input that the machine works on, and the
bytes that are touched. -/
structure Access where
  kind : AccessKind
  input : Nat
  region : Region
  deriving DecidableEq

/-- The access of an instruction, if it is a vector instruction that makes one. -/
def Instr.access? (state : State) : Instr → Option Access
  | loadV1 width =>
      some ⟨.load, (state.registers.counter .r9d).toNat, ⟨state.registers.rcx, width.bytes⟩⟩
  | storeV1 width =>
      some ⟨.store, (state.registers.counter .r9d).toNat, ⟨state.registers.r8, width.bytes⟩⟩
  | _ => none

/-- The access of the next step, if it makes one. -/
def nextAccess? (code : List Byte) (state : State) : Option Access :=
  (fetch code state).bind fun read => read.1.access? state

/-- The accesses of at most this many steps. -/
def accesses (code : List Byte) : Nat → State → List Access
  | 0, _ => []
  | fuel + 1, state =>
      match step code state with
      | none => []
      | some following => (nextAccess? code state).toList ++ accesses code fuel following

/-- The accesses of `first + second` steps are those of `first` steps and then those of `second`
more. -/
theorem accesses_add (code : List Byte) (first second : Nat) (state : State) :
    accesses code (first + second) state =
      accesses code first state ++ accesses code second (run code first state) := by
  induction first generalizing state with
  | zero => simp [accesses, run]
  | succ first ih =>
      simp only [Nat.succ_add, accesses, run]
      cases hstep : step code state with
      | none => cases second <;> simp [accesses, hstep]
      | some following => simp only [ih, List.append_assoc]

variable {instr : Instr} {state : State}

/-- What an instruction writes, if it writes memory. -/
def Instr.written? (state : State) : Instr → Option Region
  | pushRbp => some ⟨state.registers.rsp - 8, 8⟩
  | storeV1 width => some ⟨state.registers.r8, width.bytes⟩
  | _ => none

/-- An instruction changes no byte outside what it writes. -/
theorem Instr.memory_exec_of_not_written (next : Nat) {a : Address}
    (h : ∀ region, instr.written? state = some region → ¬ region.Contains a) :
    (instr.exec next state).memory a = state.memory a := by
  cases instr with
  | pushRbp =>
      refine Memory.store_of_not_contains ?_
      rw [Word.length_toBytes]
      exact h _ rfl
  | storeV1 width =>
      refine Memory.store_of_not_contains fun hcontains => h _ rfl ?_
      exact Region.contains_of_le hcontains (List.length_take_le ..)
  | _ => rfl

/-- Apart from keeping the frame pointer, an instruction writes what it accesses for a store. -/
theorem Instr.exists_access_of_written {region : Region} (hpush : instr ≠ .pushRbp)
    (h : instr.written? state = some region) :
    ∃ input, instr.access? state = some ⟨.store, input, region⟩ := by
  cases instr with
  | pushRbp => exact absurd rfl hpush
  | storeV1 width =>
      cases h
      exact ⟨_, rfl⟩
  | _ => cases h

end ChannelConcat.X86
