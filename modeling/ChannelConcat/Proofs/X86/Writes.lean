import ChannelConcat.Proofs.X86.Reach

/-!
# Memory that is written

The two instructions that write memory are the one that keeps the frame pointer and the vector
store. Main definition: `written?`. Main statements: `run_of_not_written` says that a run changes no
byte outside what its steps write, and `mem_accesses` that every access of a step is among those of
a run that goes past it.
-/

namespace ChannelConcat.X86

/-- What the next step writes, if it writes memory. -/
def written? (code : List Byte) (state : State) : Option Region :=
  (fetch code state).bind fun read => read.1.written? state

variable {code : List Byte} {state following : State} {a : Address}

/-- A step executes the instruction at its position, which is not a return. -/
theorem exists_fetch_of_step (h : step code state = some following) :
    ∃ instr size, fetch code state = some (instr, size) ∧ instr ≠ .ret ∧
      following = instr.exec (state.position + size) state := by
  rw [step] at h
  split at h
  · cases h
  · cases h
  · rename_i instr size hne hfetch
    refine ⟨instr, size, hfetch, ?_, (Option.some.inj h).symm⟩
    rintro rfl
    exact hne rfl

/-- A run goes on by one step at its end, if there is one. -/
theorem run_succ (code : List Byte) (steps : Nat) (state : State) :
    run code (steps + 1) state =
      (step code (run code steps state)).getD (run code steps state) := by
  rw [run_add]
  cases hstep : step code (run code steps state) <;> simp [run, hstep]

/-- A run changes no byte outside what its steps write. -/
theorem run_of_not_written {steps : Nat}
    (h : ∀ i < steps, ∀ region, written? code (run code i state) = some region →
      ¬ region.Contains a) :
    (run code steps state).memory a = state.memory a := by
  induction steps with
  | zero => rfl
  | succ steps ih =>
      have hbefore := ih fun i hi => h i (Nat.lt_succ_of_lt hi)
      rw [run_succ]
      cases hstep : step code (run code steps state) with
      | none => exact hbefore
      | some following =>
          obtain ⟨instr, size, hfetch, -, rfl⟩ := exists_fetch_of_step hstep
          refine (Instr.memory_exec_of_not_written _ fun region hregion => ?_).trans hbefore
          refine h steps (Nat.lt_succ_self steps) region ?_
          rw [written?, hfetch]
          exact hregion

/-- The access of a step is among those of every run that goes past it. -/
theorem mem_accesses {i steps : Nat} (hi : i < steps) {access : Access}
    (h : nextAccess? code (run code i state) = some access) :
    access ∈ accesses code steps state := by
  obtain ⟨more, rfl⟩ : ∃ more, steps = i + (more + 1) := ⟨steps - i - 1, by omega⟩
  rw [accesses_add, List.mem_append]
  refine .inr ?_
  obtain ⟨⟨instr, size⟩, hfetch, haccess⟩ := Option.bind_eq_some_iff.1 h
  have hstep : ∃ following, step code (run code i state) = some following := by
    cases instr with
    | ret => cases haccess
    | _ => exact ⟨_, by rw [step, hfetch]⟩
  obtain ⟨following, hstep⟩ := hstep
  simp [accesses, hstep, h]

end ChannelConcat.X86
