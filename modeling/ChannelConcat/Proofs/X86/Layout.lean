import ChannelConcat.Proofs.X86.Fetch
import ChannelConcat.X86.Assembly

/-!
# The layout of assembled code

Assembly keeps the order of the items and the number of bytes that each announces, so the offset of
an item in the code is the size of the items in front of it. Main statements: `exists_assemble` says
that short code always assembles, `decode?_of_resolve?` where the code of an item starts, and
`exists_resolve?_branch` what a branch becomes.
-/

namespace ChannelConcat.X86

/-- The number of bytes that a sequence of items becomes. -/
def codeSize (items : List Item) : Nat :=
  (items.map Item.size).sum

@[simp] theorem codeSize_nil : codeSize [] = 0 :=
  rfl

@[simp] theorem codeSize_cons (item : Item) (items : List Item) :
    codeSize (item :: items) = item.size + codeSize items := by
  simp [codeSize]

@[simp] theorem codeSize_append (first second : List Item) :
    codeSize (first ++ second) = codeSize first + codeSize second := by
  simp [codeSize]

/-! ## Labels -/

/-- The items behind the first place of a label. -/
def afterLabel (label : Label) : List Item → List Item
  | [] => []
  | item :: items => if item = .mark label then items else afterLabel label items

/-- What follows a label is not searched past its place. -/
theorem afterLabel_append {label : Label} {before : List Item} (h : Item.mark label ∉ before)
    (after : List Item) : afterLabel label (before ++ .mark label :: after) = after := by
  induction before with
  | nil => simp [afterLabel]
  | cons item before ih =>
      rw [List.mem_cons, not_or] at h
      rw [List.cons_append, afterLabel, if_neg (Ne.symm h.1), ih h.2]

/-- A sequence with a label splits in front of it, at the offset of the label. -/
theorem exists_split_of_labelOffset? {label : Label} {items : List Item} {target : Nat}
    (h : labelOffset? label items = some target) :
    ∃ before, items = before ++ .mark label :: afterLabel label items ∧
      codeSize before = target := by
  induction items generalizing target with
  | nil => simp [labelOffset?] at h
  | cons item items ih =>
      rw [labelOffset?] at h
      split at h
      · rename_i hitem
        refine ⟨[], ?_, by simpa using h⟩
        rw [List.nil_append, afterLabel, if_pos hitem, hitem]
      · rename_i hitem
        obtain ⟨offset, hoffset, rfl⟩ := Option.map_eq_some_iff.1 h
        obtain ⟨before, hbefore, rfl⟩ := ih hoffset
        refine ⟨item :: before, ?_, codeSize_cons item before⟩
        rw [List.cons_append, afterLabel, if_neg hitem, ← hbefore]

/-- A sequence that has a label has an offset for it, within its size. -/
theorem exists_labelOffset?_le {label : Label} {items : List Item} (h : Item.mark label ∈ items) :
    ∃ target, labelOffset? label items = some target ∧ target ≤ codeSize items := by
  induction items with
  | nil => simp at h
  | cons item items ih =>
      rw [labelOffset?]
      split
      · exact ⟨0, rfl, Nat.zero_le _⟩
      · rename_i hitem
        have hmem : Item.mark label ∈ items := by
          rcases List.mem_cons.1 h with hhead | htail
          · exact absurd hhead.symm hitem
          · exact htail
        obtain ⟨target, htarget, hle⟩ := ih hmem
        refine ⟨item.size + target, by rw [htarget]; rfl, ?_⟩
        rw [codeSize_cons]
        omega

/-- A label without a place further in front is found behind the items in front of it. -/
theorem labelOffset?_append {label : Label} {before : List Item} (h : Item.mark label ∉ before)
    (after : List Item) :
    labelOffset? label (before ++ .mark label :: after) = some (codeSize before) := by
  induction before with
  | nil => simp [labelOffset?]
  | cons item before ih =>
      rw [List.mem_cons, not_or] at h
      rw [List.cons_append, labelOffset?, if_neg (Ne.symm h.1), ih h.2, Option.map_some,
        codeSize_cons]

/-- A displacement that was found is the distance from the end of its branch to the target, which
fits into a signed byte. -/
theorem of_displacement? {next target : Nat} {displacement : BitVec 8}
    (h : displacement? next target = some displacement) :
    -128 ≤ (target : Int) - next ∧ (target : Int) - next ≤ 127 ∧
      displacement.toInt = target - next := by
  simp only [displacement?] at h
  split at h
  · rename_i hrange
    refine ⟨hrange.1, hrange.2, ?_⟩
    rw [← Option.some.inj h, BitVec.toInt_ofInt]
    exact Int.bmod_eq_of_le (by omega) (by omega)
  · cases h

/-- A displacement that was found leads from the end of its branch to the target. -/
theorem branchTarget_displacement {next target : Nat} {displacement : BitVec 8}
    (h : displacement? next target = some displacement) (htarget : target < 2 ^ 64) :
    (branchTarget next displacement).toNat = target := by
  obtain ⟨-, -, hvalue⟩ := of_displacement? h
  have hsum : branchTarget next displacement = BitVec.ofInt 64 target := by
    rw [branchTarget, BitVec.signExtend, hvalue, ← BitVec.ofInt_natCast, ← BitVec.ofInt_add]
    congr 1
    omega
  rw [hsum, BitVec.ofInt_natCast, BitVec.toNat_ofNat, Nat.mod_eq_of_lt htarget]

/-- There is a displacement for every distance that fits into a signed byte. -/
theorem exists_displacement? (next target : Nat) (hback : next ≤ target + 128)
    (hforth : target ≤ next + 127) :
    ∃ displacement, displacement? next target = some displacement := by
  refine ⟨BitVec.ofInt 8 (target - next), if_pos ?_⟩
  omega

/-! ## Assembly -/

/-- An item becomes as many bytes as it announces. -/
theorem length_encode_resolve? {whole : List Item} {address : Nat} {item : Item}
    {instrs : List Instr} (h : item.resolve? whole address = some instrs) :
    (encode instrs).length = item.size := by
  cases item with
  | plain instr =>
      cases h
      simp [encode, Item.size]
  | mark label =>
      cases h
      rfl
  | branch condition label =>
      simp only [Item.resolve?, Option.bind_eq_bind, Option.bind_eq_some_iff, Option.pure_def,
        Option.some.injEq] at h
      obtain ⟨_, _, displacement, _, rfl⟩ := h
      rfl

/-- Assembly from an address goes on at the end of each part. -/
theorem resolveFrom?_append (whole : List Item) (address : Nat) (first second : List Item) :
    resolveFrom? whole address (first ++ second) =
      (resolveFrom? whole address first).bind fun instrs =>
        (resolveFrom? whole (address + codeSize first) second).map (instrs ++ ·) := by
  induction first generalizing address with
  | nil => simp [resolveFrom?]
  | cons item first ih =>
      simp only [List.cons_append, resolveFrom?, ih, codeSize_cons, Nat.add_assoc]
      cases item.resolve? whole address with
      | none => rfl
      | some here =>
          cases resolveFrom? whole (address + item.size) first with
          | none => rfl
          | some rest =>
              cases resolveFrom? whole (address + (item.size + codeSize first)) second <;> simp

/-- Assembled items become as many bytes as they announce. -/
theorem length_encode_resolveFrom? {whole items : List Item} {address : Nat}
    {instrs : List Instr} (h : resolveFrom? whole address items = some instrs) :
    (encode instrs).length = codeSize items := by
  induction items generalizing address instrs with
  | nil =>
      cases h
      rfl
  | cons item items ih =>
      simp only [resolveFrom?, Option.bind_eq_bind, Option.bind_eq_some_iff, Option.pure_def,
        Option.some.injEq] at h
      obtain ⟨here, hhere, rest, hrest, rfl⟩ := h
      rw [encode_append, List.length_append, length_encode_resolve? hhere, ih hrest,
        codeSize_cons]

/-- The instructions of assembled code at the place of one of its items. -/
theorem exists_split_of_assemble {before after : List Item} {item : Item} {instrs : List Instr}
    (h : assemble (before ++ item :: after) = some instrs) :
    ∃ head here tail, instrs = head ++ here ++ tail ∧ (encode head).length = codeSize before ∧
      item.resolve? (before ++ item :: after) (codeSize before) = some here := by
  rw [assemble, resolveFrom?_append, Option.bind_eq_some_iff] at h
  obtain ⟨head, hhead, h⟩ := h
  obtain ⟨rest, hrest, rfl⟩ := Option.map_eq_some_iff.1 h
  simp only [resolveFrom?, Option.bind_eq_bind, Option.bind_eq_some_iff, Option.pure_def,
    Option.some.injEq, Nat.zero_add] at hrest
  obtain ⟨here, hhere, tail, _, rfl⟩ := hrest
  exact ⟨head, here, tail, (List.append_assoc ..).symm, length_encode_resolveFrom? hhead, hhere⟩

/-- An item that becomes one instruction starts at the size of the items in front of it. -/
theorem decode?_of_resolve? {items before after : List Item} {item : Item} {instrs : List Instr}
    {instr : Instr} (hassemble : assemble items = some instrs)
    (hitems : before ++ item :: after = items)
    (h : item.resolve? items (codeSize before) = some [instr]) :
    decode? ((encode instrs).drop (codeSize before)) = some (instr, instr.encode.length) := by
  subst hitems
  obtain ⟨head, here, tail, rfl, hlength, hhere⟩ := exists_split_of_assemble hassemble
  cases hhere.symm.trans h
  rw [← hlength, List.append_assoc]
  exact decode?_drop_encode head instr tail

/-- A branch of assembled code became one whose displacement was found for its label. -/
theorem exists_resolve?_branch {items before after : List Item} {instrs : List Instr}
    {condition : Condition} {label : Label} (hassemble : assemble items = some instrs)
    (hitems : before ++ .branch condition label :: after = items) :
    ∃ target displacement, labelOffset? label items = some target ∧
      displacement? (codeSize before + 2) target = some displacement ∧
      (Item.branch condition label).resolve? items (codeSize before) =
        some [.jump condition displacement] := by
  subst hitems
  obtain ⟨-, here, -, -, -, hhere⟩ := exists_split_of_assemble hassemble
  have hparts := hhere
  simp only [Item.resolve?, Option.bind_eq_bind, Option.bind_eq_some_iff, Option.pure_def,
    Option.some.injEq] at hparts
  obtain ⟨target, htarget, displacement, hdisplacement, rfl⟩ := hparts
  exact ⟨target, displacement, htarget, hdisplacement, hhere⟩

/-- Code in which every label that is branched to has a place, and whose ends are not too far apart
for a displacement of one byte, can be assembled. -/
theorem exists_assemble {items : List Item}
    (hlabels : ∀ condition label, Item.branch condition label ∈ items → Item.mark label ∈ items)
    (hsize : codeSize items ≤ 127) : ∃ instrs, assemble items = some instrs := by
  -- Labels are looked up in all items, so only what is behind an address can be shortened.
  suffices hsuffix : ∀ before after, before ++ after = items →
      ∃ instrs, resolveFrom? items (codeSize before) after = some instrs from
    hsuffix [] items rfl
  intro before after hitems
  induction after generalizing before with
  | nil => exact ⟨[], rfl⟩
  | cons item after ih =>
      have hsizes := congrArg codeSize hitems
      simp only [codeSize_append, codeSize_cons] at hsizes
      have hhere : ∃ here, item.resolve? items (codeSize before) = some here := by
        cases item with
        | plain instr => exact ⟨[instr], rfl⟩
        | mark label => exact ⟨[], rfl⟩
        | branch condition label =>
            have hbranch : Item.branch condition label ∈ items := by simp [← hitems]
            obtain ⟨target, htarget, hle⟩ :=
              exists_labelOffset?_le (hlabels condition label hbranch)
            simp only [Item.size] at hsizes
            obtain ⟨displacement, hdisplacement⟩ :=
              exists_displacement? (codeSize before + 2) target (by omega) (by omega)
            exact ⟨[.jump condition displacement],
              by simp [Item.resolve?, htarget, hdisplacement]⟩
      obtain ⟨here, hhere⟩ := hhere
      obtain ⟨rest, hrest⟩ := ih (before ++ [item]) (by rw [← hitems, List.append_assoc]; rfl)
      rw [codeSize_append, codeSize_cons, codeSize_nil, Nat.add_zero] at hrest
      exact ⟨here ++ rest, by simp [resolveFrom?, hhere, hrest]⟩

end ChannelConcat.X86
