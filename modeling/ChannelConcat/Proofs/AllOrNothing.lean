import ChannelConcat.Proofs.Checks

/-!
# All or nothing

An execution of an accepted concatenation succeeds or leaves the target as it was. Whatever can fail
does so before the first element is written: the check of the buffers, and the count of the
positions of a task. Where the positions can be counted only the first mismatch of the buffers stops
an execution. Main statement: `Concat.execute_all_or_nothing`.
-/

namespace ChannelConcat.Concat

variable {concat : Concat} {scalar : Scalar} {sources : List (Array scalar.Value)}
  {target : Array scalar.Value} {threads pixels : Nat}

/-- The work cannot be shared out over no threads, nor over more than can be counted. -/
theorem exists_taskPixels_eq_error (hthreads : ¬(0 < threads ∧ threads * 4 < Size.limit))
    (pixels : Nat) : ∃ fault, taskPixels threads pixels = .error fault := by
  by_cases hlimit : threads * 4 < Size.limit
  · obtain rfl : threads = 0 := by omega
    exact ⟨.division, rfl⟩
  · rw [taskPixels, Size.mul_eq_error_iff.2 ⟨Nat.le_of_not_lt hlimit, rfl⟩]
    exact ⟨.product, rfl⟩

/-- On buffers that match the shapes a fault comes before the first element is written. -/
theorem Valid.buffer_fill_of_fault (h : concat.Valid)
    (hpixels : concat.output.pixels = .ok pixels)
    (hmatches : concat.Matches scalar sources target)
    (hfault : (concat.fill threads scalar sources target).fault ≠ none) :
    (concat.fill threads scalar sources target).buffer = target := by
  by_cases hthreads : 0 < threads ∧ threads * 4 < Size.limit
  · rw [h.fill_eq hmatches hthreads.1 hthreads.2 hpixels] at hfault
    exact absurd rfl hfault
  · simp only [fill, hpixels] at hfault ⊢
    split at hfault
    · exact absurd rfl hfault
    · rename_i hsome
      rw [if_neg hsome]
      split at hfault
      · -- The serial run does not ask for the number of threads.
        rw [h.serial_eq hmatches (by omega)] at hfault
        exact absurd rfl hfault
      · rename_i hmany
        obtain ⟨fault, htask⟩ := exists_taskPixels_eq_error hthreads pixels
        rw [if_neg hmany, runParallel, htask]
        rfl

/-- An execution that does not succeed leaves the target as it was. -/
theorem Valid.target_of_execute_ne_ok (h : concat.Valid)
    (hfails : (concat.execute threads scalar sources target).2 ≠ .ok ()) :
    (concat.execute threads scalar sources target).1 = target := by
  unfold execute at hfails ⊢
  cases hcheck : concat.checkBuffers scalar.elem sources target with
  | error failure => rfl
  | ok _ =>
      obtain ⟨pixels, hpixels⟩ := h.pixels_of_checkBuffers hcheck
      have hmatches := ((h.checkBuffers_cases hpixels sources target).1).1 hcheck
      simp only [hcheck] at hfails ⊢
      cases hfault : (concat.fill threads scalar sources target).fault with
      | none =>
          rw [hfault] at hfails
          exact absurd rfl hfails
      | some fault =>
          refine h.buffer_fill_of_fault hpixels hmatches ?_
          rw [hfault]
          nofun

/-- An execution of a concatenation that some compiler accepted leaves the target as it was if it
does not succeed, whatever the number of threads. Where the positions of the output can be counted
it succeeds exactly on buffers that match the shapes, and stops otherwise with their first mismatch:
the element type, the number of sources, the length of the first source that does not fit, the
length of the target. -/
theorem execute_all_or_nothing {compiler : Compiler} {inputs : List Tensor} {output : Tensor}
    {relu : Bool} {concat : Concat}
    (haccepted : (prepare compiler inputs output relu).result = .ok concat) (threads : Nat)
    (scalar : Scalar) (sources : List (Array scalar.Value)) (target : Array scalar.Value) :
    ((concat.execute threads scalar sources target).2 ≠ .ok () →
      (concat.execute threads scalar sources target).1 = target) ∧
    (0 < threads → threads * 4 < Size.limit → ∀ pixels, output.pixels = .ok pixels →
      ((concat.execute threads scalar sources target).2 = .ok () ↔
        concat.Matches scalar sources target) ∧
      ∀ failure, (concat.execute threads scalar sources target).2 = .error failure ↔
        ∃ cause, failure = .refusal cause ∧ concat.Mismatch scalar sources target cause) := by
  obtain ⟨hvalid, -, rfl, -⟩ := valid_of_prepare haccepted
  refine ⟨hvalid.target_of_execute_ne_ok, ?_⟩
  intro hthreads hlimit pixels hpixels
  -- Matching buffers leave nothing that could still stop the execution.
  rw [hvalid.execute_snd_eq_checkBuffers hthreads hlimit]
  exact ⟨(hvalid.checkBuffers_cases hpixels sources target).1,
    fun failure => hvalid.checkBuffers_eq_error_iff hpixels sources target⟩

/-- Bytes of one, two and one channels at two positions. With a second source that is too short, and
a third and a target that are too long, the second source is refused and no element is written. -/
theorem execute_all_or_nothing_short_source :
    let narrow : Tensor := .interleaved .s8 ⟨1, 1, 2, 1⟩
    let inputs : List Tensor := [narrow, .interleaved .s8 ⟨1, 1, 2, 2⟩, narrow]
    let output : Tensor := .interleaved .s8 ⟨1, 1, 2, 4⟩
    let concat : Concat := ⟨inputs, output, true, 1024, .scalar⟩
    let sources : List (Array Scalar.s8.Value) := [#[1, 2], #[3, 4, 255, 6], #[7, 8]]
    let short : List (Array Scalar.s8.Value) := [#[1, 2], #[3, 4, 255], #[7, 8, 9]]
    let target : Array Scalar.s8.Value := Array.replicate 8 5
    (prepare { host := .avx2, isa := .scalar } inputs output true).result = .ok concat ∧
      0 < 3 ∧ 3 * 4 < Size.limit ∧ output.pixels = .ok 2 ∧
      concat.execute 3 .s8 sources target = (#[1, 3, 4, 7, 2, 0, 6, 8], .ok ()) ∧
      concat.Matches .s8 sources target ∧
      concat.execute 3 .s8 short (target.push 5) =
        (target.push 5, refuse (.shape (.sourceLength 1 4 3))) ∧
      concat.Mismatch .s8 short (target.push 5) (.shape (.sourceLength 1 4 3)) := by
  intro narrow inputs output concat sources short target
  have haccepted : (prepare { host := .avx2, isa := .scalar } inputs output true).result =
      .ok concat := rfl
  have hpixels : output.pixels = .ok 2 := rfl
  have hfilled : concat.execute 3 .s8 sources target = (#[1, 3, 4, 7, 2, 0, 6, 8], .ok ()) := by
    decide +kernel
  have hrefused : (concat.execute 3 .s8 short (target.push 5)).2 =
      refuse (.shape (.sourceLength 1 4 3)) := by
    decide +kernel
  obtain ⟨hmatches, -⟩ := (execute_all_or_nothing haccepted 3 .s8 sources target).2
    (by decide) (by decide) 2 hpixels
  obtain ⟨hunchanged, hmismatch⟩ :=
    execute_all_or_nothing haccepted 3 .s8 short (target.push 5)
  obtain ⟨cause, hcause, hmismatch⟩ :=
    ((hmismatch (by decide) (by decide) 2 hpixels).2 _).1 hrefused
  cases hcause
  refine ⟨haccepted, by decide, by decide, hpixels, hfilled, hmatches.1 (congrArg Prod.snd hfilled),
    Prod.ext (hunchanged ?_) hrefused, hmismatch⟩
  rw [hrefused]
  nofun

end ChannelConcat.Concat
