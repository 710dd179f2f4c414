import ChannelConcat.Transfer

/-!
# Routines

A routine is machine code together with the specification it was generated from. Its code is never
empty and occupies whole pages of memory. Main definitions: `Routine.copy` is what the routine makes
of its buffers, `Routine.call` is a number of calls in a row. Main statement: `Routine.call_succ`
says that any number of calls, but at least one, leaves what a copy leaves.
-/

namespace ChannelConcat

/-- A routine that can be run. -/
structure Routine where
  spec : Spec
  code : List Byte
  code_ne_nil : code ≠ []

namespace Routine

/-- The number of bytes of a page of memory. -/
def pageBytes : Nat :=
  4096

/-- Make code runnable; it must not be empty. -/
def ofCode (code : List Byte) (spec : Spec) : Except Failure Routine :=
  if h : code = [] then refuse (.code .empty) else .ok ⟨spec, code, h⟩

/-- The number of bytes that the code occupies, in whole pages. -/
def mappedBytes (routine : Routine) : Nat :=
  (routine.code.length + pageBytes - 1) / pageBytes * pageBytes

/-- The structured text of a routine. -/
def text (routine : Routine) : String :=
  Text.record "CompiledConcat"
    [("config", routine.spec.text), ("code_size", toString routine.mappedBytes)]

/-- What the routine makes of a target of bytes, given its sources and their block counts. -/
def copy (routine : Routine) (counts : List (BitVec 32)) (sources : List (Array Byte))
    (target : Array Byte) : Except Fault (Array Byte) := do
  let selection ← select routine.spec.bits routine.spec.elem routine.spec.relu
  let bounds ← routine.spec.loopBounds
  return copyBlocks selection bounds counts sources target

/-- The target after a number of calls in a row on the same buffers. The stride is worked out before
the first call, so one that leaves the range of sizes is a fault even where no block is copied. -/
def call (routine : Routine) (counts : List (BitVec 32)) (sources : List (Array Byte))
    (times : Nat) (target : Array Byte) : Except Fault (Array Byte) := do
  let _ ← routine.spec.blockBytes
  let selection ← select routine.spec.bits routine.spec.elem routine.spec.relu
  let bounds ← routine.spec.loopBounds
  let counts := bounds.reducedCounts counts
  return times.repeat (copyBlocks selection bounds counts sources) target

/-- An operation that changes nothing when it is done again is done any number of times like
once. -/
theorem repeat_succ_of_idem {α : Type} {f : α → α} (h : ∀ value, f (f value) = f value)
    (times : Nat) (value : α) : (times + 1).repeat f value = f value := by
  induction times with
  | zero => rfl
  | succ times ih => rw [Nat.repeat, ih, h]

/-- Any number of calls, but at least one, leaves what a copy leaves, if the stride stays in the
range of sizes. -/
theorem call_succ {routine : Routine} {stride : Nat} (h : routine.spec.blockBytes = .ok stride)
    (counts : List (BitVec 32)) (sources : List (Array Byte)) (times : Nat) (target : Array Byte) :
    routine.call counts sources (times + 1) target = routine.copy counts sources target := by
  unfold call copy
  rw [h]
  cases select routine.spec.bits routine.spec.elem routine.spec.relu with
  | error fault => rfl
  | ok selection =>
      cases routine.spec.loopBounds with
      | error fault => rfl
      | ok bounds =>
          have hcalls : (times + 1).repeat
              (copyBlocks selection bounds (bounds.reducedCounts counts) sources) target =
              copyBlocks selection bounds counts sources target := by
            rw [repeat_succ_of_idem (copyBlocks_copyBlocks bounds _), copyBlocks_reducedCounts]
          exact congrArg Except.ok hcalls

end Routine

end ChannelConcat
