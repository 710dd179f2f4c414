import ChannelConcat.Proofs.Execution

/-!
# Checked buffers

What the check of the buffers of a valid concatenation finds. Where the positions can be counted it
accepts exactly the buffers that match the shapes, refuses all others for their first mismatch and
never faults; where they cannot, it faults on the first length that it would compare. Main
definition: `Concat.Mismatch`. Main statements: `checkBuffers_cases`, `checkBuffers_eq_error_iff`,
`checkBuffers_eq_breach_iff`, `execute_snd_eq_checkBuffers`.
-/

namespace ChannelConcat

/-- Checks in a row succeed if each of them does. -/
theorem forM_eq_ok {ε α : Type} {check : α → Except ε Unit} {items : List α}
    (h : ∀ item ∈ items, check item = .ok ()) : items.forM check = .ok () := by
  induction items with
  | nil => rfl
  | cons item items ih =>
      obtain ⟨hitem, hitems⟩ := List.forall_mem_cons.1 h
      rw [List.forM, hitem]
      exact ih hitems

/-- Checks in a row fail in the way of the first of them that fails. -/
theorem forM_eq_error {ε α : Type} {check : α → Except ε Unit} {before rest : List α} {item : α}
    {failure : ε} (hbefore : ∀ earlier ∈ before, check earlier = .ok ())
    (hitem : check item = .error failure) :
    (before ++ item :: rest).forM check = .error failure := by
  induction before with
  | nil =>
      rw [List.nil_append, List.forM, hitem]
      rfl
  | cons earlier before ih =>
      obtain ⟨hearlier, hbefore⟩ := List.forall_mem_cons.1 hbefore
      rw [List.cons_append, List.forM, hearlier]
      exact ih hbefore

namespace Concat

variable {concat : Concat} {scalar : Scalar} {sources : List (Array scalar.Value)}
  {target : Array scalar.Value} {elem : ElemType} {pixels : Nat} {fault : Fault}

/-! ## The first mismatch -/

/-- The first mismatch of buffers and shapes, with the checks that pass before it and the one that
fails. -/
inductive Mismatch (concat : Concat) (scalar : Scalar) (sources : List (Array scalar.Value))
    (target : Array scalar.Value) : Refusal → Prop
  /-- The elements of the buffers are not those of the output. -/
  | elem (helem : scalar.elem ≠ concat.output.elem) :
      Mismatch concat scalar sources target (.bufferElem concat.output.elem scalar.elem)
  /-- There are not as many sources as inputs. -/
  | length (helem : scalar.elem = concat.output.elem)
      (hlength : sources.length ≠ concat.inputs.length) :
      Mismatch concat scalar sources target
        (.shape (.sources concat.inputs.length sources.length))
  /-- A source is the first that does not have as many elements as its input. -/
  | source (helem : scalar.elem = concat.output.elem)
      (hlength : sources.length = concat.inputs.length)
      (before rest : List (Array scalar.Value × Tensor)) (source : Array scalar.Value)
      (input : Tensor) (hsplit : sources.zip concat.inputs = before ++ (source, input) :: rest)
      (hbefore : ∀ pair ∈ before, pair.1.size = pair.2.positions * pair.2.channels)
      (hsize : source.size ≠ input.positions * input.channels) :
      Mismatch concat scalar sources target
        (.shape (.sourceLength before.length (input.positions * input.channels) source.size))
  /-- All sources fit, and the target does not have as many elements as the output. -/
  | target (helem : scalar.elem = concat.output.elem)
      (hlength : sources.length = concat.inputs.length)
      (hsources : ∀ pair ∈ sources.zip concat.inputs,
        pair.1.size = pair.2.positions * pair.2.channels)
      (hsize : target.size ≠ concat.output.positions * concat.output.channels) :
      Mismatch concat scalar sources target
        (.shape (.targetLength (concat.output.positions * concat.output.channels) target.size))

/-- Buffers that do not match the shapes have a first mismatch. -/
theorem matches_or_mismatch (concat : Concat) (scalar : Scalar)
    (sources : List (Array scalar.Value)) (target : Array scalar.Value) :
    concat.Matches scalar sources target ∨
      ∃ cause, concat.Mismatch scalar sources target cause := by
  by_cases helem : scalar.elem = concat.output.elem
  · by_cases hlength : sources.length = concat.inputs.length
    · by_cases hsources : ∀ pair ∈ sources.zip concat.inputs,
          pair.1.size = pair.2.positions * pair.2.channels
      · by_cases hsize : target.size = concat.output.positions * concat.output.channels
        · exact .inl ⟨helem, hlength, hsources, hsize⟩
        · exact .inr ⟨_, .target helem hlength hsources hsize⟩
      · obtain ⟨before, ⟨source, input⟩, rest, hsplit, hbefore, hsize⟩ :=
          exists_first_of_not_forall hsources
        exact .inr ⟨_, .source helem hlength before rest source input hsplit hbefore hsize⟩
    · exact .inr ⟨_, .length helem hlength⟩
  · exact .inr ⟨_, .elem helem⟩

/-! ## The check where positions can be counted -/

/-- The elements of the output are counted where its positions can be counted. -/
theorem Valid.elements_output (h : concat.Valid) (hpixels : concat.output.pixels = .ok pixels) :
    concat.output.elements = .ok (concat.output.positions * concat.output.channels) :=
  Tensor.elements_of_pixels hpixels
    (Tensor.elements?_eq_some_iff.2 ⟨rfl, h.fit.outputElements⟩)

/-- The elements of every input are counted where the positions of the output can be counted. -/
theorem Valid.elements_input (h : concat.Valid) (hpixels : concat.output.pixels = .ok pixels)
    {input : Tensor} (hinput : input ∈ concat.inputs) :
    input.elements = .ok (input.positions * input.channels) :=
  Tensor.elements_of_pixels ((h.fit.beside input hinput).pixels_eq.1.trans hpixels)
    (Tensor.elements?_eq_some_iff.2 ⟨rfl, h.fit.inputElements input hinput⟩)

/-- Sources that each have as many elements as their input are accepted. -/
theorem Valid.checkSources_of_fit (h : concat.Valid) (hpixels : concat.output.pixels = .ok pixels)
    (hsources : ∀ pair ∈ sources.zip concat.inputs,
      pair.1.size = pair.2.positions * pair.2.channels) :
    concat.checkSources sources = .ok () := by
  refine forM_eq_ok fun entry hentry => ?_
  have hpair := List.fst_mem_of_mem_zipIdx hentry
  rw [h.elements_input hpixels (List.of_mem_zip hpair).2]
  exact if_pos (hsources entry.1 hpair)

/-- Sources are refused for the first of them that does not have as many elements as its input. -/
theorem Valid.checkSources_of_first (h : concat.Valid)
    (hpixels : concat.output.pixels = .ok pixels)
    {before rest : List (Array scalar.Value × Tensor)} {source : Array scalar.Value}
    {input : Tensor} (hsplit : sources.zip concat.inputs = before ++ (source, input) :: rest)
    (hbefore : ∀ pair ∈ before, pair.1.size = pair.2.positions * pair.2.channels)
    (hsize : source.size ≠ input.positions * input.channels) :
    concat.checkSources sources = refuse (.shape
      (.sourceLength before.length (input.positions * input.channels) source.size)) := by
  have helements (pair : Array scalar.Value × Tensor)
      (hpair : pair ∈ before ++ (source, input) :: rest) :
      pair.2.elements = .ok (pair.2.positions * pair.2.channels) :=
    h.elements_input hpixels (List.of_mem_zip (hsplit ▸ hpair)).2
  rw [checkSources, hsplit, zipIdx_append_cons]
  refine forM_eq_error (fun entry hentry => ?_) ?_
  · have hpair := List.fst_mem_of_mem_zipIdx hentry
    rw [helements entry.1 (List.mem_append_left _ hpair)]
    exact if_pos (hbefore entry.1 hpair)
  · rw [helements (source, input) (List.mem_append_right _ List.mem_cons_self)]
    exact if_neg hsize

/-- Buffers that match the shapes are accepted. -/
theorem Valid.checkBuffers_of_matches (h : concat.Valid)
    (hpixels : concat.output.pixels = .ok pixels)
    (hmatches : concat.Matches scalar sources target) :
    concat.checkBuffers scalar.elem sources target = .ok () := by
  rw [checkBuffers, if_neg (not_not_intro hmatches.elem), if_neg (not_not_intro hmatches.length),
    h.checkSources_of_fit hpixels hmatches.sources, h.elements_output hpixels]
  exact if_pos hmatches.target

/-- Buffers are refused for their first mismatch. -/
theorem Valid.checkBuffers_of_mismatch (h : concat.Valid)
    (hpixels : concat.output.pixels = .ok pixels) {cause : Refusal}
    (hmismatch : concat.Mismatch scalar sources target cause) :
    concat.checkBuffers scalar.elem sources target = refuse cause := by
  unfold checkBuffers
  cases hmismatch with
  | elem helem => exact if_pos helem
  | length helem hlength =>
      rw [if_neg (not_not_intro helem)]
      exact if_pos hlength
  | source helem hlength before rest source input hsplit hbefore hsize =>
      rw [if_neg (not_not_intro helem), if_neg (not_not_intro hlength),
        h.checkSources_of_first hpixels hsplit hbefore hsize]
      rfl
  | target helem hlength hsources hsize =>
      rw [if_neg (not_not_intro helem), if_neg (not_not_intro hlength),
        h.checkSources_of_fit hpixels hsources, h.elements_output hpixels]
      exact if_neg hsize

/-- Where positions can be counted, buffers that are not accepted are refused for their first
mismatch. -/
theorem Valid.checkBuffers_eq_error_iff (h : concat.Valid)
    (hpixels : concat.output.pixels = .ok pixels) (sources : List (Array scalar.Value))
    (target : Array scalar.Value) {failure : Failure} :
    concat.checkBuffers scalar.elem sources target = .error failure ↔
      ∃ cause, failure = .refusal cause ∧ concat.Mismatch scalar sources target cause := by
  constructor
  · intro hfails
    rcases concat.matches_or_mismatch scalar sources target with hmatches | ⟨cause, hmismatch⟩
    · rw [h.checkBuffers_of_matches hpixels hmatches] at hfails
      cases hfails
    · rw [h.checkBuffers_of_mismatch hpixels hmismatch] at hfails
      cases hfails
      exact ⟨cause, rfl, hmismatch⟩
  · rintro ⟨cause, rfl, hmismatch⟩
    exact h.checkBuffers_of_mismatch hpixels hmismatch

/-- Where positions can be counted, buffers are accepted exactly if they match the shapes, and
otherwise they are refused. -/
theorem Valid.checkBuffers_cases (h : concat.Valid) (hpixels : concat.output.pixels = .ok pixels)
    (sources : List (Array scalar.Value)) (target : Array scalar.Value) :
    (concat.checkBuffers scalar.elem sources target = .ok () ↔
      concat.Matches scalar sources target) ∧
    ∀ fault, concat.checkBuffers scalar.elem sources target ≠ breach fault := by
  refine ⟨⟨fun hok => ?_, h.checkBuffers_of_matches hpixels⟩, fun fault hbreach => ?_⟩
  · rcases concat.matches_or_mismatch scalar sources target with hmatches | ⟨cause, hmismatch⟩
    · exact hmatches
    · rw [h.checkBuffers_of_mismatch hpixels hmismatch] at hok
      cases hok
  · obtain ⟨cause, hcause, -⟩ := (h.checkBuffers_eq_error_iff hpixels sources target).1 hbreach
    cases hcause

/-! ## The check where they cannot -/

/-- Where the positions cannot be counted, buffers of the right type and number are not checked any
further: the first length that would be compared is a fault. -/
theorem Valid.checkBuffers_of_pixels_error (h : concat.Valid)
    (hpixels : concat.output.pixels = .error fault) (helem : elem = concat.output.elem)
    (hlength : sources.length = concat.inputs.length) :
    concat.checkBuffers elem sources target = breach fault := by
  unfold checkBuffers
  rw [if_neg (not_not_intro helem), if_neg (not_not_intro hlength),
    Tensor.elements_of_pixels_error hpixels]
  -- The first length is that of the first source, or that of the target if there are no inputs.
  cases hinputs : concat.inputs with
  | nil =>
      rw [hinputs, List.length_nil] at hlength
      rw [List.eq_nil_of_length_eq_zero hlength, checkSources]
      rfl
  | cons input inputs =>
      obtain ⟨source, rest, rfl⟩ := List.exists_cons_of_length_pos
        (show 0 < sources.length by rw [hlength, hinputs, List.length_cons]; omega)
      have hinput : input.pixels = .error fault :=
        (h.fit.beside input (hinputs ▸ List.mem_cons_self)).pixels_eq.1.trans hpixels
      have hfirst : concat.checkSources (source :: rest) = breach fault := by
        rw [checkSources, hinputs, List.zip_cons_cons, List.zipIdx_cons, List.forM,
          Tensor.elements_of_pixels_error hinput]
        rfl
      rw [hfirst]
      rfl

/-- Buffers that are not refused have the right type and number. -/
theorem of_checkBuffers_ne_refuse
    (h : ∀ cause, concat.checkBuffers elem sources target ≠ refuse cause) :
    elem = concat.output.elem ∧ sources.length = concat.inputs.length := by
  unfold checkBuffers at h
  by_cases helem : elem = concat.output.elem
  · by_cases hlength : sources.length = concat.inputs.length
    · exact ⟨helem, hlength⟩
    · rw [if_neg (not_not_intro helem), if_pos hlength] at h
      exact absurd rfl (h _)
  · rw [if_pos helem] at h
    exact absurd rfl (h _)

/-- The check of buffers faults exactly on buffers of the right type and number for an output whose
positions cannot be counted. -/
theorem Valid.checkBuffers_eq_breach_iff (h : concat.Valid)
    (sources : List (Array scalar.Value)) (target : Array scalar.Value) :
    concat.checkBuffers scalar.elem sources target = breach fault ↔
      scalar.elem = concat.output.elem ∧ sources.length = concat.inputs.length ∧
        concat.output.pixels = .error fault := by
  cases hpixels : concat.output.pixels with
  | ok pixels => exact iff_of_false ((h.checkBuffers_cases hpixels sources target).2 fault) nofun
  | error cause =>
      constructor
      · intro hbreach
        have hne (cause : Refusal) :
            concat.checkBuffers scalar.elem sources target ≠ refuse cause := by
          rw [hbreach]
          nofun
        obtain ⟨helem, hlength⟩ := of_checkBuffers_ne_refuse hne
        rw [h.checkBuffers_of_pixels_error hpixels helem hlength] at hbreach
        cases hbreach
        exact ⟨helem, hlength, rfl⟩
      · rintro ⟨helem, hlength, hcause⟩
        cases hcause
        exact h.checkBuffers_of_pixels_error hpixels helem hlength

/-- The positions of an output can be counted where buffers were accepted. -/
theorem Valid.pixels_of_checkBuffers (h : concat.Valid)
    (hcheck : concat.checkBuffers elem sources target = .ok ()) :
    ∃ pixels, concat.output.pixels = .ok pixels := by
  cases hpixels : concat.output.pixels with
  | ok pixels => exact ⟨pixels, rfl⟩
  | error cause =>
      have hne (cause : Refusal) : concat.checkBuffers elem sources target ≠ refuse cause := by
        rw [hcheck]
        nofun
      obtain ⟨helem, hlength⟩ := of_checkBuffers_ne_refuse hne
      rw [h.checkBuffers_of_pixels_error hpixels helem hlength] at hcheck
      cases hcheck

/-! ## Execution -/

/-- On buffers that match the shapes a valid concatenation whose positions can be counted leaves the
image of the sources, whatever the number of threads. -/
theorem Valid.execute_of_matches (h : concat.Valid) (hpixels : concat.output.pixels = .ok pixels)
    (hmatches : concat.Matches scalar sources target) {threads : Nat} (hthreads : 0 < threads)
    (hlimit : threads * 4 < Size.limit) :
    concat.execute threads scalar sources target =
      ((concat.image scalar sources).toArray, .ok ()) := by
  rw [execute, h.checkBuffers_of_matches hpixels hmatches]
  simp only [h.fill_eq hmatches hthreads hlimit hpixels]

/-- A valid concatenation is stopped by the check of the buffers or not at all. -/
theorem Valid.execute_snd_eq_checkBuffers (h : concat.Valid) {threads : Nat}
    (hthreads : 0 < threads) (hlimit : threads * 4 < Size.limit)
    (sources : List (Array scalar.Value)) (target : Array scalar.Value) :
    (concat.execute threads scalar sources target).2 =
      concat.checkBuffers scalar.elem sources target := by
  cases hcheck : concat.checkBuffers scalar.elem sources target with
  | error failure => rw [execute, hcheck]
  | ok _ =>
      obtain ⟨pixels, hpixels⟩ := h.pixels_of_checkBuffers hcheck
      have hmatches := ((h.checkBuffers_cases hpixels sources target).1).1 hcheck
      rw [h.execute_of_matches hpixels hmatches hthreads hlimit]

/-- A valid concatenation faults exactly on buffers of the right type and number for an output whose
positions cannot be counted. -/
theorem Valid.execute_breach_iff (h : concat.Valid) {threads : Nat} (hthreads : 0 < threads)
    (hlimit : threads * 4 < Size.limit) (sources : List (Array scalar.Value))
    (target : Array scalar.Value) :
    (concat.execute threads scalar sources target).2 = breach fault ↔
      scalar.elem = concat.output.elem ∧ sources.length = concat.inputs.length ∧
        concat.output.pixels = .error fault := by
  rw [h.execute_snd_eq_checkBuffers hthreads hlimit, h.checkBuffers_eq_breach_iff sources target]

end Concat

end ChannelConcat
