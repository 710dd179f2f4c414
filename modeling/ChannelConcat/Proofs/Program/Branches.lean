import ChannelConcat.Proofs.BlockMove
import ChannelConcat.Proofs.Generation
import ChannelConcat.Proofs.Program.Layout

/-!
# The branches of copy routines

The instructions between a branch and its label have lengths of their own: an immediate takes one
byte or four, a vector instruction four to six, and the clamp may be absent. Whatever they are, a
branch of assembled code leads from its end to the first byte of the instruction that its label was
set before (`Branch.lands`), and a copy routine has three branches, whose distances a signed byte
holds. Main definitions: `X86.Branch`, `X86.Branch.Lands`. Main statement: `branches_land`.
-/

namespace ChannelConcat

namespace X86

/-- A branch of a sequence of items, together with the items in front of its label. -/
structure Branch where
  /-- The items in front of the branch. -/
  front : List Item
  condition : Condition
  label : Label
  /-- The items in front of the label. -/
  target : List Item

namespace Branch

/-- The address behind a branch, from which its displacement counts. -/
def next (branch : Branch) : Nat :=
  codeSize branch.front + 2

/-- The signed distance from the end of a branch to its label. -/
def distance (branch : Branch) : Int :=
  codeSize branch.target - branch.next

/-- The branch leads to the instruction that its label was set before: the displacement that the
code has for it is the distance, and from the end of the branch it leads to the first byte of the
instruction. -/
structure Lands (branch : Branch) (items : List Item) (code : List Byte) (landing : Instr) :
    Prop where
  placed : branch.front ++ [.branch branch.condition branch.label] <+: items
  /-- The label was set before the instruction. -/
  labelled : branch.target ++ [.mark branch.label, .plain landing] <+: items
  /-- The label has no other place in front of this one. -/
  first : .mark branch.label ∉ branch.target
  fits : -128 ≤ branch.distance ∧ branch.distance ≤ 127
  encoded : ∃ displacement : BitVec 8, displacement.toInt = branch.distance ∧
    decode? (code.drop (codeSize branch.front)) = some (.jump branch.condition displacement, 2) ∧
    (branchTarget branch.next displacement).toNat = codeSize branch.target
  read : decode? (code.drop (codeSize branch.target)) = some (landing, landing.encode.length)

variable {branch : Branch} {items : List Item} {instrs : List Instr} {landing : Instr}

/-- Every branch of assembled code leads to the instruction that its label was set before. -/
theorem lands (hassemble : assemble items = some instrs) (hsize : codeSize items < 2 ^ 64)
    (hplaced : branch.front ++ [.branch branch.condition branch.label] <+: items)
    (hlabelled : branch.target ++ [.mark branch.label, .plain landing] <+: items)
    (hfirst : .mark branch.label ∉ branch.target) :
    branch.Lands items (encode instrs) landing := by
  obtain ⟨after, hbranch⟩ := id hplaced
  obtain ⟨tail, hlabel⟩ := id hlabelled
  rw [List.append_assoc] at hbranch hlabel
  obtain ⟨target, displacement, htarget, hdisplacement, hresolve⟩ :=
    exists_resolve?_branch hassemble hbranch
  -- The label was looked up in all items, and found at its first place.
  have hoffset : labelOffset? branch.label items = some (codeSize branch.target) :=
    hlabel ▸ labelOffset?_append hfirst _
  cases htarget.symm.trans hoffset
  obtain ⟨hback, hforth, hvalue⟩ := of_displacement? hdisplacement
  have hbound : codeSize branch.target < 2 ^ 64 := by
    have hsizes := congrArg codeSize hlabel
    rw [codeSize_append] at hsizes
    omega
  constructor
  case placed => exact hplaced
  case labelled => exact hlabelled
  case first => exact hfirst
  case fits => exact ⟨hback, hforth⟩
  case encoded =>
    exact ⟨displacement, hvalue, decode?_of_resolve? hassemble hbranch hresolve,
      branchTarget_displacement hdisplacement hbound⟩
  case read =>
    have hplain : (branch.target ++ [.mark branch.label]) ++ .plain landing :: tail = items := by
      rw [List.append_assoc]
      exact hlabel
    simpa [Item.size] using decode?_of_resolve? hassemble hplain rfl

end Branch

end X86

namespace Program

open X86

variable {selection : Selection} {bounds : LoopBounds}

/-- The instruction behind each label of a routine with work on inputs. -/
def landing (selection : Selection) : Label → Instr
  | .nextInput => .loadEax
  | .nextBlock => .loadV1 selection.width
  | .inputDone => .add .rsi 8

/-- The branch to each label of a routine with work on inputs. -/
def branchTo (selection : Selection) (bounds : LoopBounds) (label : Label) : Branch where
  front :=
    match label with
    | .nextInput =>
        frontOf selection bounds .inputDone ++
          .mark .inputDone :: (advanceInstrs bounds).map .plain
    | .nextBlock =>
        frontOf selection bounds .nextBlock ++
          .mark .nextBlock :: (turnInstrs selection bounds).map .plain
    | .inputDone =>
        frontOf selection bounds .nextInput ++ .mark .nextInput :: inputInstrs.map .plain
  condition :=
    match label with
    | .nextInput => .less
    | .nextBlock => .greater
    | .inputDone => .lessOrEqual
  label := label
  target := frontOf selection bounds label

/-- The branch in an item, if it is one. -/
def branch? : Item → Option (Condition × Label)
  | .branch condition label => some (condition, label)
  | _ => none

/-- Each label is set before an instruction. -/
theorem behind_eq_cons (selection : Selection) (bounds : LoopBounds) (label : Label) :
    ∃ tail, behind selection bounds label = .plain (landing selection label) :: tail := by
  cases label <;> exact ⟨_, rfl⟩

/-- Each branch has its place in front of what is behind it. -/
theorem placed_branchTo (hinputs : 0 < bounds.inputs.toInt) (label : Label) :
    (branchTo selection bounds label).front ++
        [.branch (branchTo selection bounds label).condition label] <+:
      items selection bounds := by
  rw [items_of_pos hinputs]
  cases label with
  | nextInput => exact ⟨exit, by simp [branchTo, frontOf, fromInput, fromBlock, afterInput]⟩
  | nextBlock =>
      exact ⟨.mark .inputDone :: afterInput bounds, by
        simp [branchTo, frontOf, fromInput, fromBlock]⟩
  | inputDone =>
      exact ⟨.mark .nextBlock :: fromBlock selection bounds, by
        simp [branchTo, frontOf, fromInput]⟩

/-- A routine with work on inputs has the three branches to its labels and no others. -/
theorem filterMap_branch?_items (hinputs : 0 < bounds.inputs.toInt) :
    (items selection bounds).filterMap branch? =
      [(.lessOrEqual, .inputDone), (.greater, .nextBlock), (.less, .nextInput)] := by
  have hplain (instrs : List Instr) : (instrs.map Item.plain).filterMap branch? = [] := by
    rw [List.filterMap_map, List.filterMap_eq_nil_iff]
    exact fun _ _ => rfl
  rw [items_of_pos hinputs, fromInput, fromBlock, afterInput]
  simp only [entry, exit, List.filterMap_append, List.filterMap_cons, List.filterMap_nil, hplain,
    branch?, List.nil_append]

/-- Every branch of a routine with work on inputs leads to the instruction that its label was set
before. -/
theorem lands_branchTo {instrs : List Instr}
    (hassemble : assemble (items selection bounds) = some instrs)
    (hinputs : 0 < bounds.inputs.toInt) (label : Label) :
    (branchTo selection bounds label).Lands (items selection bounds) (encode instrs)
      (landing selection label) := by
  obtain ⟨tail, hbehind⟩ := behind_eq_cons selection bounds label
  have hlabelled : frontOf selection bounds label ++
      [.mark label, .plain (landing selection label)] <+: items selection bounds := by
    rw [items_eq_at hinputs label, hbehind]
    exact ⟨tail, List.append_assoc ..⟩
  exact Branch.lands hassemble (codeSize_items_lt selection bounds)
    (placed_branchTo hinputs label) hlabelled (mark_notMem_frontOf selection bounds label)

/-- The branch past the work on an input leads forth, over one turn of the loop over blocks; the two
that close a loop lead back. -/
theorem distance_branchTo (selection : Selection) (bounds : LoopBounds) :
    0 < (branchTo selection bounds .inputDone).distance ∧
      (branchTo selection bounds .nextBlock).distance < 0 ∧
      (branchTo selection bounds .nextInput).distance < 0 := by
  simp only [Branch.distance, Branch.next, branchTo, frontOf, codeSize_append, codeSize_cons,
    codeSize_nil, Item.size]
  omega

end Program

/-- Short branches always reach their labels: no specification is refused because a label is too far
away. The code of a specification with work on inputs has three branches: one past the work on an
input and two that close the loops over blocks and over inputs. A signed byte holds each of their
distances, and each displacement leads from the end of its branch to the first byte of the
instruction that its label was set before. The whole code is not empty and shorter than 128 bytes,
so it occupies one page of memory. -/
theorem branches_land (isa : Isa) (spec : Spec) :
    generate isa spec ≠ refuse (.code .branchReach) ∧
    ∀ code, generate isa spec = .ok code → 0 < (BitVec.ofNat 32 spec.inputs).toInt →
      ∃ selection bounds, select spec.bits spec.elem spec.relu = .ok selection ∧
        spec.loopBounds = .ok bounds ∧
        (Program.items selection bounds).filterMap Program.branch? =
          [(.lessOrEqual, .inputDone), (.greater, .nextBlock), (.less, .nextInput)] ∧
        (∀ label, (Program.branchTo selection bounds label).Lands
          (Program.items selection bounds) code (Program.landing selection label)) ∧
        0 < (Program.branchTo selection bounds .inputDone).distance ∧
        (Program.branchTo selection bounds .nextBlock).distance < 0 ∧
        (Program.branchTo selection bounds .nextInput).distance < 0 ∧
        code ≠ [] ∧ code.length < 128 ∧
        ∃ routine, Routine.ofCode code spec = .ok routine ∧ routine.mappedBytes = 4096 := by
  constructor
  · intro hrefused
    cases generate_eq_error_iff.1 hrefused
  intro code h hinputs
  have hne := ne_nil_of_generate h
  obtain ⟨selection, bounds, instrs, hselect, -, -, hbounds, hassemble, rfl⟩ :=
    generate_eq_ok_iff.1 h
  have hpos : 0 < bounds.inputs.toInt := by
    rwa [(Spec.bounds_of_loopBounds hbounds).1]
  have hlength : (X86.encode instrs).length < 128 := by
    rw [X86.length_encode_resolveFrom? hassemble]
    exact Nat.lt_succ_of_le (Program.codeSize_items_le selection bounds)
  have hmapped : (⟨spec, X86.encode instrs, hne⟩ : Routine).mappedBytes = 4096 := by
    have hbytes := List.length_pos_iff.2 hne
    unfold Routine.mappedBytes Routine.pageBytes
    show ((X86.encode instrs).length + 4096 - 1) / 4096 * 4096 = 4096
    omega
  obtain ⟨hskip, hagain, hnext⟩ := Program.distance_branchTo selection bounds
  exact ⟨selection, bounds, hselect, hbounds, Program.filterMap_branch?_items hpos,
    Program.lands_branchTo hassemble hpos, hskip, hagain, hnext, hne, hlength, _, dif_neg hne,
    hmapped⟩

/-- The branches of a routine on the widest vectors that clamps, and whose stride and number of
inputs do not fit into a byte. -/
theorem branches_land_widest :
    let spec : Spec := ⟨300, true, .s8, 1, 256, 512, ⟨1, 1, 1, 76800⟩⟩
    let selection : Selection := ⟨.zmm, some .maxI8⟩
    let bounds : LoopBounds := ⟨300, 256⟩
    ∃ code, generate .avx512 spec = .ok code ∧ 0 < (BitVec.ofNat 32 spec.inputs).toInt ∧
      (∀ label, (Program.branchTo selection bounds label).Lands
        (Program.items selection bounds) code (Program.landing selection label)) ∧
      code.length < 128 := by
  intro spec selection bounds
  have hbounds : spec.loopBounds = .ok bounds := by
    simp [spec, bounds, Spec.loopBounds, Spec.blockBytes, Size.mul, Size.limit, Except.map]
  obtain ⟨code, hcode⟩ : ∃ code, generate .avx512 spec = .ok code :=
    exists_generate selection bounds rfl rfl (by decide) hbounds
  have hinputs : 0 < (BitVec.ofNat 32 spec.inputs).toInt := by decide
  obtain ⟨selected, found, hselect, hfound, -, hlands, -, -, -, -, hlength, -⟩ :=
    (branches_land .avx512 spec).2 code hcode hinputs
  cases hselect
  cases hbounds.symm.trans hfound
  exact ⟨code, hcode, hinputs, hlands, hlength⟩

end ChannelConcat
