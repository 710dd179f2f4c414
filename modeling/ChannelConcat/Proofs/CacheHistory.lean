import Mathlib.Data.List.DropRight
import ChannelConcat.Proofs.Accounting

/-!
# Histories of a cache

What a cache answers is told by the operations that were done on it: a lookup gives the handle of
the last routine that was put for the specification since the cache was last cleared, and the size
and the counts are numbers of operations since then. The number of a handle is the place of its
routine among all routines that were ever put, so no later operation changes what the handle stands
for. Main definitions: `Cache.LatestPut`, `Cache.past`, `Cache.Tracks`. Main statements:
`Cache.Tracks.next`, `Cache.refines_history`.
-/

namespace ChannelConcat

namespace Cache

/-! ## Operations -/

/-- An operation on a cache. -/
inductive Operation where
  | get (spec : Spec)
  | put (routine : Routine)
  | clear

/-- The cache after an operation. -/
def next (cache : Cache) : Operation → Cache
  | .get spec => (cache.get spec).2
  | .put routine => (cache.put routine).2
  | .clear => cache.clear

/-- The handle that an operation gives. -/
def given? (cache : Cache) : Operation → Option Handle
  | .get spec => (cache.get spec).1
  | .put routine => some (cache.put routine).1
  | .clear => none

/-- The cache after a number of operations. -/
def after (cache : Cache) (operations : List Operation) : Cache :=
  operations.foldl next cache

/-- An operation that was done, with the handle that it gave. -/
structure Done where
  operation : Operation
  given? : Option Handle

/-- The operations with the handles that they give, one after the other. -/
def history (cache : Cache) : List Operation → List Done
  | [] => []
  | operation :: operations =>
      ⟨operation, cache.given? operation⟩ :: (cache.next operation).history operations

namespace Done

/-- The operation was a clearing of the cache. -/
def isClear (done : Done) : Bool :=
  match done.operation with
  | .clear => true
  | _ => false

/-- The operation was a lookup that found a routine. -/
def isHit (done : Done) : Bool :=
  match done.operation with
  | .get _ => done.given?.isSome
  | _ => false

/-- The operation was a lookup that found no routine. -/
def isMiss (done : Done) : Bool :=
  match done.operation with
  | .get _ => done.given?.isNone
  | _ => false

/-- The specification that a routine was put for. -/
def putSpec? (done : Done) : Option Spec :=
  match done.operation with
  | .put routine => some routine.spec
  | _ => none

end Done

/-- What operations on a cache have done since it was last cleared. -/
def past (cache : Cache) (operations : List Operation) : List Done :=
  (cache.history operations).rtakeWhile fun done => !done.isClear

/-- The specifications that a routine was put for, each counted once. -/
def putSpecs (past : List Done) : Finset Spec :=
  (past.filterMap Done.putSpec?).toFinset

/-- The routines that are put by operations, in order. -/
def puts (operations : List Operation) : List Routine :=
  operations.filterMap fun operation =>
    match operation with
    | .put routine => some routine
    | _ => none

/-- The handle is that of the last put for the specification since the cache was last cleared. -/
def LatestPut (operations : List Operation) (spec : Spec) (handle : Handle) : Prop :=
  ∃ before later, operations = before ++ .put handle.routine :: later ∧
    handle.routine.spec = spec ∧ handle.serial = (puts before).length ∧ .clear ∉ later ∧
    ∀ other, .put other ∈ later → other.spec ≠ spec

variable {operations : List Operation} {operation : Operation} {spec : Spec} {handle : Handle}

/-! ## One more operation -/

/-- One more operation comes after the others. -/
theorem after_concat (cache : Cache) (operations : List Operation) (operation : Operation) :
    cache.after (operations ++ [operation]) = (cache.after operations).next operation :=
  List.foldl_concat ..

/-- A history goes on where its first part ends. -/
theorem history_append (cache : Cache) (first second : List Operation) :
    cache.history (first ++ second) =
      cache.history first ++ (cache.after first).history second := by
  induction first generalizing cache with
  | nil => rfl
  | cons operation first ih =>
      rw [List.cons_append, history, history, ih]
      rfl

/-- An operation other than a clearing is added to the past. -/
theorem past_concat (hclear : operation ≠ .clear) (cache : Cache) (operations : List Operation) :
    cache.past (operations ++ [operation]) =
      cache.past operations ++ [⟨operation, (cache.after operations).given? operation⟩] := by
  rw [past, history_append, history, history, List.rtakeWhile_concat_pos, past]
  cases operation with
  | clear => exact absurd rfl hclear
  | get | put => rfl

/-- A clearing ends the past. -/
theorem past_concat_clear (cache : Cache) (operations : List Operation) :
    cache.past (operations ++ [.clear]) = [] := by
  rw [past, history_append]
  exact List.rtakeWhile_concat_neg _ _ _ Bool.false_ne_true

/-- A split of operations with one more at the end is at that one, or else it is a split of the
others. -/
theorem split_concat {before later : List Operation} {chosen : Operation}
    (h : operations ++ [operation] = before ++ chosen :: later) :
    (before = operations ∧ chosen = operation ∧ later = []) ∨
      ∃ init, later = init ++ [operation] ∧ operations = before ++ chosen :: init := by
  rcases List.eq_nil_or_concat later with rfl | ⟨init, last, rfl⟩
  · obtain ⟨hbefore, hlast⟩ := List.append_inj' h rfl
    exact .inl ⟨hbefore.symm, (List.singleton_inj.1 hlast).symm, rfl⟩
  · rw [List.concat_eq_append, ← List.cons_append, ← List.append_assoc] at h
    obtain ⟨hbefore, hlast⟩ := List.append_inj' h rfl
    refine .inr ⟨init, ?_, hbefore⟩
    rw [List.concat_eq_append, List.singleton_inj.1 hlast]

/-- The last put for a specification is the last operation, or else it is the last of those before
it and the last operation neither clears the cache nor puts for the specification. -/
theorem latestPut_concat :
    LatestPut (operations ++ [operation]) spec handle ↔
      (operation = .put handle.routine ∧ handle.routine.spec = spec ∧
        handle.serial = (puts operations).length) ∨
      (operation ≠ .clear ∧ (∀ other, operation = .put other → other.spec ≠ spec) ∧
        LatestPut operations spec handle) := by
  constructor
  · rintro ⟨before, later, hsplit, hspec, hserial, hclear, hothers⟩
    rcases split_concat hsplit with ⟨rfl, rfl, rfl⟩ | ⟨init, rfl, rfl⟩
    · exact .inl ⟨rfl, hspec, hserial⟩
    · rw [List.mem_append, not_or] at hclear
      refine .inr ⟨fun hlast => hclear.2 (by simp [hlast]), ?_, before, init, rfl, hspec, hserial,
        hclear.1, fun other hother => hothers other (List.mem_append_left _ hother)⟩
      rintro other rfl
      exact hothers other (List.mem_append_right _ List.mem_cons_self)
  · rintro (⟨rfl, hspec, hserial⟩ | ⟨hlast, hput, before, later, rfl, hspec, hserial, hclear,
      hothers⟩)
    · exact ⟨operations, [], rfl, hspec, hserial, List.not_mem_nil, nofun⟩
    · refine ⟨before, later ++ [operation], by simp, hspec, hserial, ?_, ?_⟩
      · rw [List.mem_append, not_or]
        exact ⟨hclear, fun hmem => hlast (List.mem_singleton.1 hmem).symm⟩
      · intro other hother
        rcases List.mem_append.1 hother with hearlier | hnow
        · exact hothers other hearlier
        · exact hput other (List.mem_singleton.1 hnow).symm

/-- A lookup answers with what is kept. -/
theorem get_fst (cache : Cache) (spec : Spec) : (cache.get spec).1 = cache.find? spec := by
  unfold get
  split <;> simp [*]

/-- A lookup changes nothing but one of the counts. -/
theorem get_snd (cache : Cache) (spec : Spec) :
    (cache.get spec).2 =
      { cache with
        hits := cache.hits + if (cache.find? spec).isSome then 1 else 0
        misses := cache.misses + if (cache.find? spec).isNone then 1 else 0 } := by
  unfold get
  split <;> simp [*]

/-- The specifications with a routine are those for which one is found. -/
theorem mem_specs_iff {cache : Cache} : spec ∈ cache.specs ↔ (cache.find? spec).isSome := by
  rw [specs, List.mem_toFinset, List.mem_map, find?, List.find?_isSome]
  simp

/-- After a routine is put, its specification has a routine. -/
theorem specs_put (cache : Cache) (routine : Routine) :
    (cache.put routine).2.specs = insert routine.spec cache.specs := by
  ext spec
  rw [Finset.mem_insert, mem_specs_iff, mem_specs_iff, find?_put]
  by_cases hspec : routine.spec = spec
  · simp [hspec]
  · simp [hspec, Ne.symm hspec]

/-! ## The invariant -/

/-- The cache is what the operations tell. -/
structure Tracks (operations : List Operation) (cache : Cache) : Prop where
  nextSerial : cache.nextSerial = (puts operations).length
  find? : ∀ spec handle, cache.find? spec = some handle ↔ LatestPut operations spec handle
  specs : cache.specs = putSpecs (past {} operations)
  hits : cache.hits = (past {} operations).countP Done.isHit
  misses : cache.misses = (past {} operations).countP Done.isMiss

namespace Tracks

/-- A new cache has no past. -/
theorem new : Tracks [] {} := by
  constructor
  case nextSerial => rfl
  case find? =>
    intro spec handle
    refine ⟨nofun, ?_⟩
    rintro ⟨before, later, hsplit, -⟩
    cases (List.append_eq_nil_iff.1 hsplit.symm).2
  case specs => rfl
  case hits => rfl
  case misses => rfl

/-- A lookup adds to one of the counts. -/
theorem get (h : Tracks operations (after {} operations)) (spec : Spec) :
    Tracks (operations ++ [.get spec]) ((after {} operations).get spec).2 := by
  have hpast : past {} (operations ++ [.get spec]) =
      past {} operations ++ [⟨.get spec, (after {} operations).find? spec⟩] := by
    rw [past_concat (by simp), given?, get_fst]
  rw [get_snd]
  constructor
  case nextSerial =>
    rw [puts, List.filterMap_append, List.length_append]
    exact h.nextSerial
  case find? =>
    intro other handle
    show (after {} operations).find? other = some handle ↔ _
    rw [latestPut_concat]
    simpa using h.find? other handle
  case specs =>
    rw [hpast, putSpecs, List.filterMap_append]
    show _ = (_ ++ []).toFinset
    rw [List.append_nil]
    exact h.specs
  case hits =>
    rw [hpast, List.countP_append, ← h.hits, List.countP_singleton]
    rfl
  case misses =>
    rw [hpast, List.countP_append, ← h.misses, List.countP_singleton]
    rfl

/-- A put makes its routine the last for its specification and counts nothing. -/
theorem put (h : Tracks operations (after {} operations)) (routine : Routine) :
    Tracks (operations ++ [.put routine]) ((after {} operations).put routine).2 := by
  have hpast : past {} (operations ++ [.put routine]) =
      past {} operations ++ [⟨.put routine, some ((after {} operations).put routine).1⟩] :=
    past_concat (by simp) {} operations
  constructor
  case nextSerial =>
    rw [puts, List.filterMap_append, List.length_append]
    exact congrArg (· + 1) h.nextSerial
  case find? =>
    intro spec handle
    rw [find?_put, latestPut_concat]
    by_cases hspec : routine.spec = spec
    · rw [if_pos hspec]
      constructor
      · rintro ⟨⟩
        exact .inl ⟨rfl, hspec, h.nextSerial⟩
      · rintro (⟨hput, -, hserial⟩ | ⟨-, hother, -⟩)
        · rw [Operation.put.injEq] at hput
          show some (Handle.mk (after {} operations).nextSerial routine) = some handle
          rw [h.nextSerial, ← hserial, hput]
        · exact absurd hspec (hother routine rfl)
    · rw [if_neg hspec, h.find?]
      constructor
      · intro hlatest
        refine .inr ⟨nofun, ?_, hlatest⟩
        rintro other ⟨⟩
        exact hspec
      · rintro (⟨hput, hsame, -⟩ | ⟨-, -, hlatest⟩)
        · rw [Operation.put.injEq] at hput
          exact absurd (hput ▸ hsame) hspec
        · exact hlatest
  case specs =>
    rw [specs_put, h.specs, hpast]
    ext spec
    simp [putSpecs, Done.putSpec?]
  case hits =>
    rw [hpast, List.countP_append, ← h.hits]
    rfl
  case misses =>
    rw [hpast, List.countP_append, ← h.misses]
    rfl

/-- Clearing ends the past. -/
theorem clear (h : Tracks operations (after {} operations)) :
    Tracks (operations ++ [.clear]) (after {} operations).clear := by
  constructor
  case nextSerial =>
    rw [puts, List.filterMap_append, List.length_append]
    exact h.nextSerial
  case find? =>
    intro spec handle
    rw [latestPut_concat]
    refine ⟨nofun, ?_⟩
    rintro (⟨hput, -⟩ | ⟨hclear, -⟩)
    · cases hput
    · exact absurd rfl hclear
  case specs =>
    rw [past_concat_clear]
    rfl
  case hits =>
    rw [past_concat_clear]
    rfl
  case misses =>
    rw [past_concat_clear]
    rfl

/-- One more operation is tracked. -/
theorem next (h : Tracks operations (after {} operations)) (operation : Operation) :
    Tracks (operations ++ [operation]) ((after {} operations).next operation) := by
  cases operation with
  | get spec => exact h.get spec
  | put routine => exact h.put routine
  | clear => exact h.clear

/-- Any number of operations on a new cache are tracked. -/
theorem after (operations : List Operation) : Tracks operations (Cache.after {} operations) := by
  induction operations using List.reverseRecOn with
  | nil => exact new
  | append_singleton operations operation ih =>
      rw [after_concat]
      exact ih.next operation

end Tracks

/-! ## Handles -/

/-- What was done is one of the operations, with the handle that it gave there. -/
theorem exists_split_of_mem_history {cache : Cache} {done : Done}
    (h : done ∈ cache.history operations) :
    ∃ before later, operations = before ++ done.operation :: later ∧
      done.given? = (cache.after before).given? done.operation := by
  induction operations generalizing cache with
  | nil => cases h
  | cons operation operations ih =>
      rcases List.mem_cons.1 h with rfl | hlater
      · exact ⟨[], operations, rfl, rfl⟩
      · obtain ⟨before, later, rfl, hgiven⟩ := ih hlater
        exact ⟨operation :: before, later, rfl, hgiven⟩

/-- The place of a routine among those that are put is the number of puts before its own. -/
theorem getElem?_puts (before : List Operation) (routine : Routine) (later : List Operation) :
    (puts (before ++ .put routine :: later))[(puts before).length]? = some routine := by
  rw [puts, List.filterMap_append, ← puts, List.getElem?_append_right (Nat.le_refl _),
    Nat.sub_self]
  rfl

/-- The number of a handle that was given is the place of its routine among all that were put. -/
theorem getElem?_puts_of_mem_history {done : Done} (h : done ∈ history {} operations)
    (hgiven : done.given? = some handle) :
    (puts operations)[handle.serial]? = some handle.routine := by
  obtain ⟨before, later, rfl, hsplit⟩ := exists_split_of_mem_history h
  obtain ⟨operation, given⟩ := done
  rw [hgiven] at hsplit
  have htracks := Tracks.after before
  cases operation with
  | clear => cases hsplit
  | put routine =>
      cases hsplit
      show (puts _)[(after {} before).nextSerial]? = some routine
      rw [htracks.nextSerial]
      exact getElem?_puts before routine later
  | get spec =>
      have hfound : (after {} before).find? spec = some handle := by
        rw [← get_fst]
        exact hsplit.symm
      obtain ⟨front, between, rfl, -, hserial, -⟩ := (htracks.find? spec handle).1 hfound
      rw [hserial, List.append_assoc]
      exact getElem?_puts front handle.routine _

/-! ## The refinement -/

/-- A cache refines a map in which the last write wins. After any operations on a new cache, a
lookup gives exactly the handle of the last routine that was put for the specification since the
cache was last cleared, and none if there is no such put. The size is the number of the
specifications that a routine was put for since then, and the counts are the numbers of lookups
since then that found a routine and that did not. A put leaves the counts and the lookups of all
other specifications as they were. The number of every handle that was given is the place of its
routine among all that were put, however the cache was overwritten or cleared afterwards, so a
number stands for one handle only. -/
theorem refines_history (operations : List Operation) :
    (∀ spec handle, ((after {} operations).get spec).1 = some handle ↔
      LatestPut operations spec handle) ∧
    (∀ spec, ((after {} operations).get spec).1 = none ↔ spec ∉ putSpecs (past {} operations)) ∧
    (after {} operations).size = (putSpecs (past {} operations)).card ∧
    ((after {} operations).isEmpty = true ↔ (after {} operations).size = 0) ∧
    (after {} operations).hits = (past {} operations).countP Done.isHit ∧
    (after {} operations).misses = (past {} operations).countP Done.isMiss ∧
    (∀ routine, ((after {} operations).put routine).2.hits = (after {} operations).hits ∧
      ((after {} operations).put routine).2.misses = (after {} operations).misses ∧
      ∀ spec ≠ routine.spec, (((after {} operations).put routine).2.get spec).1 =
        ((after {} operations).get spec).1) ∧
    ∀ first ∈ history {} operations, ∀ handle, first.given? = some handle →
      (puts operations)[handle.serial]? = some handle.routine ∧
      ∀ second ∈ history {} operations, ∀ other, second.given? = some other →
        handle.serial = other.serial → handle = other := by
  have htracks := Tracks.after operations
  refine ⟨?_, ?_, ?_, ?_, htracks.hits, htracks.misses, ?_, ?_⟩
  · intro spec handle
    rw [get_fst]
    exact htracks.find? spec handle
  · intro spec
    rw [get_fst, ← htracks.specs, mem_specs_iff, Bool.not_eq_true, Option.isSome_eq_false_iff,
      Option.isNone_iff_eq_none]
  · rw [← htracks.specs, card_specs]
  · rw [isEmpty, List.isEmpty_iff, size, List.length_eq_zero_iff]
  · intro routine
    refine ⟨rfl, rfl, ?_⟩
    intro spec hspec
    rw [get_fst, get_fst, find?_put, if_neg (Ne.symm hspec)]
  · intro first hfirst handle hhandle
    have hplace := getElem?_puts_of_mem_history hfirst hhandle
    refine ⟨hplace, ?_⟩
    intro second hsecond other hother hserial
    have hsame := getElem?_puts_of_mem_history hsecond hother
    rw [← hserial, hplace] at hsame
    obtain ⟨serial, routine⟩ := handle
    obtain ⟨otherSerial, otherRoutine⟩ := other
    cases hserial
    cases hsame
    rfl

/-- The miss before the last two puts and the hit after them are counted, and these puts leave one
entry. -/
example :
    let spec : Spec := ⟨1, false, .f32, 4, 4, 128, ⟨1, 1, 1, 4⟩⟩
    let routine : Routine := ⟨spec, [0xC3], by simp⟩
    let cache := after {}
      [.put routine, .clear, .get spec, .put routine, .put routine, .get spec]
    (cache.size, cache.hits, cache.misses) = (1, 1, 1) := by
  decide

end Cache

end ChannelConcat
