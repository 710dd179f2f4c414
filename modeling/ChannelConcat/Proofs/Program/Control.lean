import ChannelConcat.Proofs.Program.Instructions
import ChannelConcat.Proofs.X86.Writes

/-!
# Control in a copy routine

A machine that has begun with a routine stays among its instructions: it goes on with the next one
or, at a branch, with one behind the entry. So it never keeps the frame pointer again, and vector
register 0 is all zeros once the entry is behind it. Main definition: `Program.Underway`. Main
statements: `Program.exists_split_of_jump`, `Program.underway_run`.
-/

namespace ChannelConcat

namespace X86

/-- A branch in assembled code has the displacement from its end to the place of a label. -/
theorem exists_label_of_jump {whole items : List Item} {address : Nat}
    {before after : List Instr} {condition : Condition} {displacement : BitVec 8}
    (hplain : ∀ instr, .plain instr ∈ items → instr.branches = false)
    (h : resolveFrom? whole address items =
      some (before ++ .jump condition displacement :: after)) :
    ∃ label target, labelOffset? label whole = some target ∧
      displacement? (address + (encode before).length + 2) target = some displacement := by
  induction items generalizing address before with
  | nil => simp [resolveFrom?] at h
  | cons item items ih =>
      simp only [resolveFrom?, Option.bind_eq_bind, Option.bind_eq_some_iff, Option.pure_def,
        Option.some.injEq] at h
      obtain ⟨here, hhere, rest, hrest, hsplit⟩ := h
      have hrestPlain : ∀ instr, .plain instr ∈ items → instr.branches = false :=
        fun instr hinstr => hplain instr (.tail _ hinstr)
      cases item with
      | mark label =>
          cases hhere
          obtain rfl : rest = _ := hsplit
          exact ih hrestPlain hrest
      | plain instr =>
          cases hhere
          cases before with
          | nil =>
              obtain ⟨rfl, -⟩ := List.cons.inj hsplit
              cases hplain _ (.head _)
          | cons first before =>
              obtain ⟨rfl, rfl⟩ := List.cons.inj hsplit
              obtain ⟨label, target, htarget, hdisplacement⟩ := ih hrestPlain hrest
              refine ⟨label, target, htarget, ?_⟩
              rwa [encode_cons, List.length_append, ← Nat.add_assoc]
      | branch shape label =>
          simp only [Item.resolve?, Option.bind_eq_bind, Option.bind_eq_some_iff, Option.pure_def,
            Option.some.injEq] at hhere
          obtain ⟨target, htarget, found, hfound, rfl⟩ := hhere
          cases before with
          | nil =>
              obtain ⟨hjump, -⟩ := List.cons.inj hsplit
              cases hjump
              exact ⟨label, target, htarget, hfound⟩
          | cons first before =>
              obtain ⟨rfl, rfl⟩ := List.cons.inj hsplit
              obtain ⟨label, target, htarget, hdisplacement⟩ := ih hrestPlain hrest
              refine ⟨label, target, htarget, ?_⟩
              rwa [encode_cons, List.length_append, ← Nat.add_assoc]

/-- What does not have an item lies in front of every place with it. -/
theorem prefix_of_append_eq {α : Type} {front rest before after : List α} {item : α}
    (h : front ++ rest = before ++ item :: after) (hfront : item ∉ front) : front <+: before := by
  rcases List.append_eq_append_iff.1 h with ⟨more, rfl, -⟩ | ⟨more, rfl, hmore⟩
  · exact List.prefix_append ..
  · cases more with
    | nil => simp
    | cons first more =>
        rw [(List.cons.inj hmore).1] at hfront
        exact absurd (List.mem_append_right before (.head _)) hfront

/-- No instruction but the two that clear vector registers changes register 0. -/
theorem Instr.v0_exec {instr : Instr} (hclear : instr ≠ .clearV0) (hupper : instr ≠ .clearUpper)
    (next : Nat) (state : State) : (instr.exec next state).v0 = state.v0 := by
  cases instr with
  | clearV0 => exact absurd rfl hclear
  | clearUpper => exact absurd rfl hupper
  | _ => simp only [Instr.exec]

/-- Where register 0 is all zeros, it stays so. -/
theorem Instr.v0_exec_of_zeros {state : State} (h : state.v0 = List.replicate vectorBytes 0)
    (instr : Instr) (next : Nat) :
    (instr.exec next state).v0 = List.replicate vectorBytes 0 := by
  by_cases hclear : instr = .clearV0
  · rw [hclear]
    rfl
  · by_cases hupper : instr = .clearUpper
    · rw [hupper, Instr.exec, h]
      rfl
    · rw [Instr.v0_exec hclear hupper, h]

end X86

namespace Program

open X86

variable {selection : Selection} {bounds : LoopBounds} {instrs : List Instr} {state : State}

/-! ## Instructions of a routine -/

/-- A routine ends with a return. -/
theorem getLast?_items (selection : Selection) (bounds : LoopBounds) :
    (items selection bounds).getLast? = some (.plain .ret) := by
  rw [items, exit, List.getLast?_append]
  rfl

/-- No item of a routine is a branch that has its displacement already. -/
theorem branches_of_mem_items {instr : Instr} (h : .plain instr ∈ items selection bounds) :
    instr.branches = false := by
  have hmem : instr ∈ (items selection bounds).filterMap Item.plain? :=
    List.mem_filterMap.2 ⟨_, h, rfl⟩
  rw [filterMap_items] at hmem
  exact branches_of_mem_plainInstrs hmem

/-- An instruction of a routine that is no branch is among those that it was assembled from. -/
theorem mem_plainInstrs_of_mem (hassemble : assemble (items selection bounds) = some instrs)
    {instr : Instr} (h : instr ∈ instrs) (hbranches : instr.branches = false) :
    instr ∈ plainInstrs selection bounds := by
  have hmem : instr ∈ instrs.filter fun instr => !instr.branches :=
    List.mem_filter.2 ⟨h, by rw [hbranches]; rfl⟩
  rw [filter_resolveFrom? hassemble, filterMap_items] at hmem
  exact (List.mem_filter.1 hmem).1

/-- The front of a routine that has the entry is assembled to what has the instructions of the
entry. -/
theorem prefix_of_resolveFrom? {whole front : List Item} {head : List Instr}
    (h : resolveFrom? whole 0 front = some head) (hfront : entry <+: front) :
    entryInstrs <+: head := by
  obtain ⟨more, rfl⟩ := hfront
  rw [resolveFrom?_append, Option.bind_eq_some_iff] at h
  obtain ⟨first, hfirst, h⟩ := h
  obtain ⟨rest, -, rfl⟩ := Option.map_eq_some_iff.1 h
  cases hfirst
  exact List.prefix_append ..

/-- A routine begins with the instructions of the entry. -/
theorem entryInstrs_prefix (h : assemble (items selection bounds) = some instrs) :
    entryInstrs <+: instrs := by
  refine prefix_of_resolveFrom? h ?_
  rw [items, List.append_assoc]
  exact List.prefix_append ..

/-- A branch of a routine goes to where an instruction behind the entry starts. -/
theorem exists_split_of_jump (h : assemble (items selection bounds) = some instrs)
    {before after : List Instr} {condition : Condition} {displacement : BitVec 8}
    (hsplit : instrs = before ++ .jump condition displacement :: after) :
    ∃ head instr tail, instrs = head ++ instr :: tail ∧ entryInstrs <+: head ∧
      (branchTarget ((encode before).length + 2) displacement).toNat = (encode head).length := by
  obtain ⟨label, target, htarget, hdisplacement⟩ :=
    exists_label_of_jump (fun _ => branches_of_mem_items) (h.trans (congrArg some hsplit))
  rw [Nat.zero_add] at hdisplacement
  obtain ⟨front, hitems, rfl⟩ := exists_split_of_labelOffset? htarget
  generalize afterLabel label (items selection bounds) = behind at hitems
  have hlast := getLast?_items selection bounds
  have hsize := codeSize_items_lt selection bounds
  have hentry : entry <+: front := by
    have hparts : entry ++ ((if 0 < bounds.inputs.toInt then inputs selection bounds else []) ++
        exit) = front ++ .mark label :: behind := by
      rw [← List.append_assoc]
      exact hitems
    exact prefix_of_append_eq hparts (by simp [entry])
  have hwhole := h
  rw [assemble, hitems] at h
  rw [hitems] at hlast hsize
  rw [resolveFrom?_append, Option.bind_eq_some_iff] at h
  obtain ⟨head, hhead, h⟩ := h
  obtain ⟨rest, hrest, rfl⟩ := Option.map_eq_some_iff.1 h
  have hlength := length_encode_resolveFrom? hhead
  -- The return is behind the label, so the code from the label on is not empty.
  have hpos : 0 < codeSize behind := by
    rcases List.eq_nil_or_concat behind with rfl | ⟨init, last, rfl⟩
    · rw [List.getLast?_concat] at hlast
      cases hlast
    · rw [List.concat_eq_append, ← List.cons_append, ← List.append_assoc,
        List.getLast?_concat] at hlast
      cases hlast
      simp [Item.size, Instr.encode]
  cases rest with
  | nil =>
      have hnone : 0 = codeSize (.mark label :: behind) := length_encode_resolveFrom? hrest
      rw [codeSize_cons] at hnone
      omega
  | cons instr tail =>
      refine ⟨head, instr, tail, rfl, prefix_of_resolveFrom? hhead hentry, ?_⟩
      rw [codeSize_append] at hsize
      rw [hlength]
      exact branchTarget_displacement hdisplacement (by omega)

/-! ## Machines underway -/

/-- A machine is in front of one of the instructions of a routine or behind them all, but not in
front of the first. Vector register 0 is all zeros if the entry is behind it. -/
def Underway (instrs : List Instr) (state : State) : Prop :=
  ∃ head tail, instrs = head ++ tail ∧ state.position = (encode head).length ∧ head ≠ [] ∧
    (entryInstrs <+: head → state.v0 = List.replicate vectorBytes 0)

/-- A machine underway reads the instruction that it is in front of. -/
theorem Underway.exists_split (h : Underway instrs state) {instr : Instr} {size : Nat}
    (hfetch : fetch (encode instrs) state = some (instr, size)) :
    ∃ head tail, instrs = head ++ instr :: tail ∧ state.position = (encode head).length ∧
      head ≠ [] ∧ (entryInstrs <+: head → state.v0 = List.replicate vectorBytes 0) ∧
      size = instr.encode.length := by
  obtain ⟨head, tail, rfl, hposition, hne, hzeros⟩ := h
  cases tail with
  | nil =>
      rw [List.append_nil, fetch, hposition, List.drop_length] at hfetch
      cases hfetch
  | cons first tail =>
      rw [fetch_encode first tail hposition] at hfetch
      cases hfetch
      exact ⟨head, tail, rfl, hposition, hne, hzeros, rfl⟩

/-- A machine at the start of a routine is about to keep the frame pointer. -/
theorem fetch_entry (hassemble : assemble (items selection bounds) = some instrs)
    (hposition : state.position = 0) :
    fetch (encode instrs) state = some (.pushRbp, Instr.pushRbp.encode.length) := by
  obtain ⟨rest, rfl⟩ := entryInstrs_prefix hassemble
  have hfront : state.position = (encode []).length := hposition
  exact fetch_encode .pushRbp _ hfront

/-- A step of a machine underway leaves it underway. -/
theorem Underway.next (hassemble : assemble (items selection bounds) = some instrs)
    (h : Underway instrs state) {following : State}
    (hstep : step (encode instrs) state = some following) : Underway instrs following := by
  obtain ⟨instr, size, hfetch, hret, rfl⟩ := exists_fetch_of_step hstep
  obtain ⟨head, tail, hsplit, hposition, hne, hzeros, rfl⟩ := h.exists_split hfetch
  have hbehind : state.position + instr.encode.length = (encode (head ++ [instr])).length := by
    rw [encode_append, List.length_append, hposition, encode_cons]
    simp [encode]
  have hwhole : instrs = (head ++ [instr]) ++ tail := by rw [hsplit, List.append_assoc]; rfl
  have hafter : head ++ [instr] ≠ [] := by simp
  cases hfalls : instr.falls with
  | true =>
      refine ⟨head ++ [instr], tail, hwhole, ?_, hafter, ?_⟩
      · rw [Instr.position_exec hfalls, hbehind]
      · intro hentry
        rcases List.prefix_concat_iff.1 hentry with hlast | hearlier
        · -- The entry ends with the instruction that clears the register.
          have hclear : instr = .clearV0 := by
            have := congrArg List.getLast? hlast
            rw [List.getLast?_concat] at this
            exact (Option.some.inj this).symm
          rw [hclear]
          rfl
        · exact Instr.v0_exec_of_zeros (hzeros hearlier) instr _
  | false =>
      cases instr with
      | ret => exact absurd rfl hret
      | jump condition displacement =>
          obtain ⟨rest, hentry⟩ := entryInstrs_prefix hassemble
          have hzeros := hzeros (prefix_of_append_eq (hentry.trans hsplit) (by simp [entryInstrs]))
          have hkept : (Instr.exec (state.position + 2) state (.jump condition displacement)).v0 =
              List.replicate vectorBytes 0 := Instr.v0_exec_of_zeros hzeros _ _
          obtain ⟨front, first, behind, hfront, hprefix, htarget⟩ :=
            exists_split_of_jump hassemble hsplit
          cases hholds : condition.holds state.flags with
          | true =>
              refine ⟨front, first :: behind, hfront, ?_, ?_, fun _ => hkept⟩
              · rw [← htarget, ← hposition]
                exact if_pos hholds
              · rintro rfl
                exact absurd (List.prefix_nil.1 hprefix) (by simp [entryInstrs])
          | false =>
              refine ⟨head ++ [.jump condition displacement], tail, hwhole, ?_, hafter,
                fun _ => hkept⟩
              rw [← hbehind]
              exact if_neg (by simp [hholds])
      | _ => cases hfalls

/-- A machine that begins with a routine is underway from its first step on. -/
theorem underway_run (hassemble : assemble (items selection bounds) = some instrs)
    (hposition : state.position = 0) (i : Nat) :
    Underway instrs (run (encode instrs) (i + 1) state) := by
  induction i with
  | zero =>
      have hfetch := fetch_entry hassemble hposition
      obtain ⟨rest, hentry⟩ := entryInstrs_prefix hassemble
      have hstep : step (encode instrs) state =
          some (Instr.pushRbp.exec (state.position + Instr.pushRbp.encode.length) state) := by
        rw [step, hfetch]
      rw [run_succ, run, hstep, Option.getD_some]
      refine ⟨[.pushRbp], entryInstrs.tail ++ rest, hentry.symm, ?_, by simp, ?_⟩
      · rw [Instr.position_exec rfl, hposition]
        rfl
      · intro hprefix
        exact absurd hprefix.length_le (by decide)
  | succ i ih =>
      rw [run_succ]
      cases hstep : step (encode instrs) (run (encode instrs) (i + 1) state) with
      | none => exact ih
      | some following => exact ih.next hassemble hstep

/-! ## What is read underway -/

/-- The frame pointer is kept once. -/
theorem count_pushRbp (hassemble : assemble (items selection bounds) = some instrs) :
    instrs.count .pushRbp = 1 := by
  have hfilter := congrArg (List.count .pushRbp) (filter_resolveFrom? hassemble)
  rw [List.count_filter rfl, List.count_filter rfl, filterMap_items] at hfilter
  rw [hfilter, plainInstrs]
  obtain ⟨width, clamp⟩ := selection
  split <;> cases clamp <;>
    simp [entryInstrs, exitInstrs, inputsInstrs, inputInstrs, turnInstrs, blockInstrs,
      advanceInstrs]

/-- A machine underway does not keep the frame pointer again. -/
theorem Underway.ne_pushRbp (hassemble : assemble (items selection bounds) = some instrs)
    (h : Underway instrs state) {instr : Instr} {size : Nat}
    (hfetch : fetch (encode instrs) state = some (instr, size)) : instr ≠ .pushRbp := by
  rintro rfl
  obtain ⟨head, tail, hsplit, -, hne, -⟩ := h.exists_split hfetch
  obtain ⟨first, head, rfl⟩ := List.exists_cons_of_ne_nil hne
  obtain ⟨rest, hentry⟩ := entryInstrs_prefix hassemble
  have hfirst : Instr.pushRbp = first := (List.cons.inj (hentry.trans hsplit)).1
  have hcount := count_pushRbp hassemble
  rw [hsplit, ← hfirst, List.cons_append, List.count_cons_self, List.count_append,
    List.count_cons_self] at hcount
  omega

/-- The clamps of a routine have the selected width. -/
theorem width_of_mem_plainInstrs {width : VectorWidth} {clamp : Clamp}
    (h : .clampV1 width clamp ∈ plainInstrs selection bounds) : width = selection.width := by
  obtain ⟨selected, found⟩ := selection
  rw [plainInstrs] at h
  split at h <;> cases found <;>
    simp_all [entryInstrs, exitInstrs, inputsInstrs, inputInstrs, turnInstrs, blockInstrs,
      advanceInstrs]

/-- A machine underway clamps against zeros, with the selected width. -/
theorem Underway.zeros_of_clamp (hassemble : assemble (items selection bounds) = some instrs)
    (h : Underway instrs state) {width : VectorWidth} {clamp : Clamp} {size : Nat}
    (hfetch : fetch (encode instrs) state = some (.clampV1 width clamp, size)) :
    width = selection.width ∧ state.v0 = List.replicate vectorBytes 0 := by
  obtain ⟨head, tail, hsplit, -, -, hzeros, -⟩ := h.exists_split hfetch
  obtain ⟨rest, hentry⟩ := entryInstrs_prefix hassemble
  have hmem : .clampV1 width clamp ∈ instrs := by
    rw [hsplit]
    exact List.mem_append_right head (.head _)
  exact ⟨width_of_mem_plainInstrs (mem_plainInstrs_of_mem hassemble hmem rfl),
    hzeros (prefix_of_append_eq (hentry.trans hsplit) (by simp [entryInstrs]))⟩

end Program

end ChannelConcat
