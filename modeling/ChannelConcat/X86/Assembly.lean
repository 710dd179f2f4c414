import ChannelConcat.X86.Encoding

/-!
# Assembly with labels

A routine is written as a sequence of instructions, labels and branches to labels. Assembly gives
every branch the displacement from its end to its label. Main definition: `assemble`, which fails
exactly when a label is missing or too far away for a displacement of one byte.
-/

namespace ChannelConcat.X86

/-- A place in a routine that branches go to. -/
inductive Label where
  /-- The start of the work on one input. -/
  | nextInput
  /-- The start of the work on one block. -/
  | nextBlock
  /-- The end of the work on one input. -/
  | inputDone
  deriving DecidableEq

/-- A part of a routine before assembly. -/
inductive Item where
  | plain (instr : Instr)
  /-- The place of a label: before the next instruction. -/
  | mark (label : Label)
  | branch (condition : Condition) (label : Label)
  deriving DecidableEq

namespace Item

/-- The number of bytes that an item becomes. -/
def size : Item → Nat
  | plain instr => instr.encode.length
  | mark _ => 0
  | branch _ _ => 2

end Item

/-- The number of bytes in front of a label, if the sequence has it. -/
def labelOffset? (label : Label) : List Item → Option Nat
  | [] => none
  | item :: items =>
      if item = .mark label then some 0
      else (labelOffset? label items).map (item.size + ·)

/-- The displacement from the end of a branch to its target, if one signed byte can hold it. -/
def displacement? (next target : Nat) : Option (BitVec 8) :=
  let distance : Int := target - next
  if -128 ≤ distance ∧ distance ≤ 127 then some (BitVec.ofInt 8 distance) else none

/-- The instruction that an item at an address becomes; a label becomes none. The labels are looked
up in the whole sequence. -/
def Item.resolve? (whole : List Item) (address : Nat) : Item → Option (List Instr)
  | plain instr => some [instr]
  | mark _ => some []
  | branch condition label => do
      let target ← labelOffset? label whole
      let displacement ← displacement? (address + 2) target
      return [.jump condition displacement]

/-- The instructions that the items from an address on become. -/
def resolveFrom? (whole : List Item) (address : Nat) : List Item → Option (List Instr)
  | [] => some []
  | item :: items => do
      let instrs ← item.resolve? whole address
      let rest ← resolveFrom? whole (address + item.size) items
      return instrs ++ rest

/-- The instructions of a routine, each branch with its displacement. -/
def assemble (items : List Item) : Option (List Instr) :=
  resolveFrom? items 0 items

end ChannelConcat.X86
