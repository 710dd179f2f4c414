import ChannelConcat.Proofs.Program.Run

/-!
# The instructions of copy routines

Assembly adds branches to the instructions of a routine and nothing else. Main definition:
`Program.plainInstrs`. Main statements: `filter_resolveFrom?`, `Program.filterMap_items`.
-/

namespace ChannelConcat

open X86

/-- The instruction of an item that is neither a label nor a branch to one. -/
def X86.Item.plain? : Item → Option Instr
  | .plain instr => some instr
  | .mark _ | .branch _ _ => none

/-- The instruction is a branch. -/
def X86.Instr.branches : Instr → Bool
  | .jump _ _ => true
  | _ => false

/-- Assembly adds nothing but branches to the instructions that it is given. -/
theorem X86.filter_resolveFrom? {whole items : List Item} {address : Nat} {instrs : List Instr}
    (h : resolveFrom? whole address items = some instrs) :
    (instrs.filter fun instr => !instr.branches) =
      (items.filterMap Item.plain?).filter fun instr => !instr.branches := by
  induction items generalizing address instrs with
  | nil =>
      cases h
      rfl
  | cons item items ih =>
      simp only [resolveFrom?, Option.bind_eq_bind, Option.bind_eq_some_iff, Option.pure_def,
        Option.some.injEq] at h
      obtain ⟨here, hhere, rest, hrest, rfl⟩ := h
      rw [List.filter_append, ih hrest]
      cases item with
      | plain instr =>
          cases hhere
          exact (List.filter_append ..).symm
      | mark label =>
          cases hhere
          rfl
      | branch condition label =>
          simp only [Item.resolve?, Option.bind_eq_bind, Option.bind_eq_some_iff,
            Option.pure_def, Option.some.injEq] at hhere
          obtain ⟨_, _, displacement, _, rfl⟩ := hhere
          rfl

namespace Program

/-- The instructions of the work on all inputs, apart from its branches. -/
def inputsInstrs (selection : Selection) (bounds : LoopBounds) : List Instr :=
  .clearR9 :: inputInstrs ++ turnInstrs selection bounds ++ advanceInstrs bounds

/-- The instructions of the exit. -/
def exitInstrs : List Instr :=
  [.clearUpper, .popRbp, .ret]

/-- The instructions of a routine, apart from its branches. -/
def plainInstrs (selection : Selection) (bounds : LoopBounds) : List Instr :=
  entryInstrs ++ (if 0 < bounds.inputs.toInt then inputsInstrs selection bounds else []) ++
    exitInstrs

/-- The items of a routine that are neither labels nor branches to them. -/
theorem filterMap_items (selection : Selection) (bounds : LoopBounds) :
    (items selection bounds).filterMap Item.plain? = plainInstrs selection bounds := by
  have hmap (block : List Instr) : (block.map Item.plain).filterMap Item.plain? = block := by
    rw [List.filterMap_map]
    exact List.filterMap_some
  have hentry : entry = entryInstrs.map .plain := rfl
  have hexit : exit = exitInstrs.map .plain := rfl
  rw [plainInstrs]
  by_cases h : 0 < bounds.inputs.toInt
  · rw [items_of_pos h, if_pos h, hentry]
    simp only [fromInput, fromBlock, afterInput, hexit, List.filterMap_append, hmap,
      List.filterMap_cons, Item.plain?, inputsInstrs, List.append_assoc, List.cons_append]
  · rw [items_of_not_pos h, if_neg h, hentry, hexit, List.filterMap_append, hmap, hmap,
      List.append_nil]

/-- None of the instructions of a routine is a branch that has its displacement already. -/
theorem branches_of_mem_plainInstrs {selection : Selection} {bounds : LoopBounds} {instr : Instr}
    (h : instr ∈ plainInstrs selection bounds) : instr.branches = false := by
  have hinputs : ∀ instr ∈ inputsInstrs selection bounds, instr.branches = false := by
    obtain ⟨width, clamp⟩ := selection
    cases clamp <;>
      simp [inputsInstrs, inputInstrs, turnInstrs, blockInstrs, advanceInstrs, Instr.branches]
  simp only [plainInstrs, List.mem_append] at h
  rcases h with (hentry | hwork) | hexit
  · revert instr
    decide
  · split at hwork
    · exact hinputs instr hwork
    · cases hwork
  · revert instr
    decide

end Program

end ChannelConcat
