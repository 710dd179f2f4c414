import ChannelConcat.Proofs.X86.Accesses
import ChannelConcat.Proofs.X86.Layout

/-!
# Running assembled code

A machine that runs assembled code is followed through the items of the code: `InFrontOf` says
which items come next, `runs_execAll` runs a stretch without branches, `runs_branch` runs one
branch, and `Condition.holds_ofSub` says when a branch is taken after a comparison. The vector
accesses on the way are kept.
-/

namespace ChannelConcat.X86

/-- The first state leads to the second in some number of steps. -/
def Reaches (code : List Byte) (state final : State) : Prop :=
  ∃ steps, run code steps state = final

/-- The first state leads to the second in some number of steps, with these vector accesses. -/
def Runs (code : List Byte) (state : State) (trace : List Access) (final : State) : Prop :=
  ∃ steps, run code steps state = final ∧ accesses code steps state = trace

namespace Runs

variable {code : List Byte} {first second third : State} {trace more : List Access}

/-- A run leads to its last state. -/
theorem reaches (h : Runs code first trace second) : Reaches code first second :=
  h.imp fun _ hrun => hrun.1

/-- Every state leads to itself. -/
theorem refl (code : List Byte) (state : State) : Runs code state [] state :=
  ⟨0, rfl, rfl⟩

/-- Runs follow each other, and so do their accesses. -/
theorem trans (h : Runs code first trace second) (hrest : Runs code second more third) :
    Runs code first (trace ++ more) third := by
  obtain ⟨steps, rfl, rfl⟩ := h
  obtain ⟨later, rfl, rfl⟩ := hrest
  exact ⟨steps + later, run_add code steps later first, accesses_add code steps later first⟩

/-- A run that goes on without an access has the accesses that it had. -/
theorem trans_nil (h : Runs code first trace second) (hrest : Runs code second [] third) :
    Runs code first trace third := by
  have hrun := h.trans hrest
  rwa [List.append_nil] at hrun

/-- An instruction other than a return begins a run. -/
theorem of_fetch {instr : Instr} {size : Nat} (h : fetch code first = some (instr, size))
    (hret : instr ≠ .ret) :
    Runs code first (instr.access? first).toList (instr.exec (first.position + size) first) := by
  have hstep : step code first = some (instr.exec (first.position + size) first) := by
    simp only [step, h]
  refine ⟨1, by simp only [run, hstep], ?_⟩
  simp only [accesses, hstep, nextAccess?, h, Option.bind_some, List.append_nil]

end Runs

/-- A state that has come to a return stays. -/
theorem run_of_atReturn {code : List Byte} {state : State} (h : AtReturn code state)
    (steps : Nat) : run code steps state = state := by
  cases steps with
  | zero => rfl
  | succ steps =>
      have hfetch : fetch code state = some (.ret, Instr.ret.encode.length) := h
      simp only [run, step, hfetch]

/-- No state leads to two returns. -/
theorem Reaches.unique {code : List Byte} {state first second : State}
    (h : Reaches code state first) (hreturn : AtReturn code first)
    (hother : Reaches code state second) (hotherReturn : AtReturn code second) :
    first = second := by
  obtain ⟨steps, rfl⟩ := h
  obtain ⟨others, rfl⟩ := hother
  rcases Nat.le_total steps others with hle | hle
  · obtain ⟨more, rfl⟩ := Nat.exists_eq_add_of_le hle
    rw [run_add, run_of_atReturn hreturn]
  · obtain ⟨more, rfl⟩ := Nat.exists_eq_add_of_le hle
    rw [run_add, run_of_atReturn hotherReturn]

/-- The state is in front of the last items of a sequence. -/
def InFrontOf (items rest : List Item) (state : State) : Prop :=
  ∃ before, before ++ rest = items ∧ state.position = codeSize before

/-- The instruction is always followed by the one behind it: it neither branches nor returns. -/
def Instr.falls : Instr → Bool
  | jump _ _ | ret => false
  | _ => true

/-- An instruction that does not branch ends in front of the position behind it. -/
theorem Instr.position_exec {instr : Instr} (h : instr.falls = true) (next : Nat) (state : State) :
    (instr.exec next state).position = next := by
  cases instr with
  | jump | ret => cases h
  | _ => rfl

/-- The state after instructions that do not branch, one after the other. -/
def execAll (instrs : List Instr) (state : State) : State :=
  instrs.foldl (fun state instr => instr.exec (state.position + instr.encode.length) state) state

/-- The accesses of instructions that do not branch, one after the other. -/
def accessAll : List Instr → State → List Access
  | [], _ => []
  | instr :: instrs, state =>
      (instr.access? state).toList ++
        accessAll instrs (instr.exec (state.position + instr.encode.length) state)

/-- Instructions that do not branch are executed part by part. -/
theorem execAll_append (first second : List Instr) (state : State) :
    execAll (first ++ second) state = execAll second (execAll first state) :=
  List.foldl_append

variable {items rest : List Item} {instrs : List Instr} {state : State}

/-- A label takes no bytes. -/
theorem InFrontOf.mark {label : Label} (h : InFrontOf items (.mark label :: rest) state) :
    InFrontOf items rest state := by
  obtain ⟨before, hitems, hposition⟩ := h
  exact ⟨before ++ [.mark label], by rw [← hitems, List.append_assoc]; rfl,
    by simpa [Item.size] using hposition⟩

/-- A machine in front of an instruction that does not branch executes it and is then in front of
what follows. -/
theorem InFrontOf.exec {instr : Instr} (hassemble : assemble items = some instrs)
    (h : InFrontOf items (.plain instr :: rest) state) (hfalls : instr.falls = true) :
    Runs (encode instrs) state (instr.access? state).toList
        (instr.exec (state.position + instr.encode.length) state) ∧
      InFrontOf items rest (instr.exec (state.position + instr.encode.length) state) := by
  obtain ⟨before, hitems, hposition⟩ := h
  have hret : instr ≠ .ret := by
    rintro rfl
    cases hfalls
  have hfetch : fetch (encode instrs) state = some (instr, instr.encode.length) := by
    rw [fetch, hposition]
    exact decode?_of_resolve? hassemble hitems rfl
  refine ⟨.of_fetch hfetch hret, before ++ [.plain instr], by simpa using hitems, ?_⟩
  rw [Instr.position_exec hfalls, hposition]
  simp [Item.size]

/-- A machine in front of instructions that do not branch executes them all. -/
theorem runs_execAll (block : List Instr) (hassemble : assemble items = some instrs)
    (h : InFrontOf items (block.map .plain ++ rest) state)
    (hfalls : ∀ instr ∈ block, instr.falls = true) :
    Runs (encode instrs) state (accessAll block state) (execAll block state) ∧
      InFrontOf items rest (execAll block state) := by
  induction block generalizing state with
  | nil => exact ⟨.refl _ _, h⟩
  | cons instr block ih =>
      have hhead := InFrontOf.exec hassemble h (hfalls instr List.mem_cons_self)
      have htail := ih hhead.2 fun instr hinstr => hfalls instr (List.mem_cons_of_mem _ hinstr)
      exact ⟨hhead.1.trans htail.1, htail.2⟩

/-- A machine in front of a branch goes on behind the label if the condition holds, and behind the
branch otherwise. Nothing but the position changes. -/
theorem runs_branch {condition : Condition} {label : Label}
    (hassemble : assemble items = some instrs) (hsize : codeSize items < 2 ^ 64)
    (h : InFrontOf items (.branch condition label :: rest) state) :
    ∃ position, Runs (encode instrs) state [] { state with position } ∧
      InFrontOf items (if condition.holds state.flags then afterLabel label items else rest)
        { state with position } := by
  obtain ⟨before, hitems, hposition⟩ := h
  obtain ⟨target, displacement, htarget, hdisplacement, hresolve⟩ :=
    exists_resolve?_branch hassemble hitems
  obtain ⟨front, hsplit, hfront⟩ := exists_split_of_labelOffset? htarget
  have hfetch : fetch (encode instrs) state = some (.jump condition displacement, 2) := by
    rw [fetch, hposition]
    exact decode?_of_resolve? hassemble hitems hresolve
  have hrun : Runs (encode instrs) state [] _ :=
    .of_fetch hfetch (show Instr.jump condition displacement ≠ .ret by simp)
  refine ⟨_, hrun, ?_⟩
  -- A label has no bytes, so its offset is that of the item behind it.
  cases condition.holds state.flags with
  | true =>
      have hbound : target < 2 ^ 64 := by
        have := congrArg codeSize hsplit
        simp only [codeSize_append, codeSize_cons] at this hsize
        omega
      refine ⟨front ++ [.mark label], by simpa using hsplit.symm, ?_⟩
      rw [hposition]
      simpa [Item.size, hfront] using branchTarget_displacement hdisplacement hbound
  | false =>
      refine ⟨before ++ [.branch condition label], by simpa using hitems, ?_⟩
      simp [Item.size, hposition]

/-- A machine in front of a return has come to a return. -/
theorem InFrontOf.atReturn (hassemble : assemble items = some instrs)
    (h : InFrontOf items (.plain .ret :: rest) state) : AtReturn (encode instrs) state := by
  obtain ⟨before, hitems, hposition⟩ := h
  rw [AtReturn, fetch, hposition]
  exact decode?_of_resolve? hassemble hitems rfl

/-! ## Conditions -/

/-- The sign of a difference is wrong exactly where it overflows, so the two flags tell the
order. -/
theorem sign_bne_overflow (a b : BitVec 32) :
    ((a - b).msb != a.ssubOverflow b) = decide (a.toInt < b.toInt) := by
  have := BitVec.toInt_lt (x := a)
  have := BitVec.toInt_lt (x := b)
  have := BitVec.le_toInt (x := a)
  have := BitVec.le_toInt (x := b)
  rw [Bool.eq_iff_iff, bne_iff_ne, ne_eq, Bool.eq_iff_iff, BitVec.msb_eq_toInt, BitVec.toInt_sub,
    BitVec.ssubOverflow, Int.bmod]
  simp only [decide_eq_true_eq, Bool.or_eq_true]
  omega

/-- After a comparison the conditions are those of the signed order. -/
theorem Condition.holds_ofSub (condition : Condition) (a b : BitVec 32) :
    condition.holds (.ofSub a b) =
      match condition with
      | .lessOrEqual => decide (a.toInt ≤ b.toInt)
      | .greater => decide (b.toInt < a.toInt)
      | .less => decide (a.toInt < b.toInt) := by
  have hzero : a - b = 0 ↔ a.toInt = b.toInt := by
    rw [BitVec.sub_eq_iff_eq_add, BitVec.ofNat_eq_ofNat, BitVec.zero_add, BitVec.toInt_inj]
  have hsign := sign_bne_overflow a b
  cases condition with
  | lessOrEqual =>
      simp only [holds, Flags.ofSub, hsign, hzero]
      rw [Bool.eq_iff_iff]
      simp only [Bool.or_eq_true, decide_eq_true_eq]
      omega
  | greater =>
      have hequal : ((a - b).msb == a.ssubOverflow b) = !decide (a.toInt < b.toInt) := by
        rw [← hsign, bne, Bool.not_not]
      simp only [holds, Flags.ofSub, hequal, hzero]
      rw [Bool.eq_iff_iff]
      simp only [Bool.and_eq_true, Bool.not_eq_true', decide_eq_true_eq, decide_eq_false_iff_not]
      omega
  | less => exact hsign

end ChannelConcat.X86
