import Mathlib.Data.Finset.Card
import ChannelConcat.Proofs.Generation
import ChannelConcat.Proofs.Requests

/-!
# Accounting

The counts and the size of a cache tell what became of the lookups since it was last cleared: each
is a hit or a miss, each specification that was compiled with success has one entry, and the misses
are these entries and the failures. Main definitions: `Compiler.lookups`, `Cache.Accounts`. Main
statements: `Cache.Accounts.next`, `Compiler.accounts_after`.
-/

namespace ChannelConcat

/-- A lookup in the cache, and what compiling the specification came to, whatever the request made
of it afterwards. -/
structure Lookup where
  spec : Spec
  result : Except Failure Handle

/-- Compiling the specification gave a routine. -/
def Lookup.succeeded (lookup : Lookup) : Bool :=
  match lookup.result with
  | .ok _ => true
  | .error _ => false

/-- The specifications that were compiled with success, each counted once. -/
def compiledSpecs (lookups : List Lookup) : Finset Spec :=
  ((lookups.filter Lookup.succeeded).map Lookup.spec).toFinset

/-- The number of lookups after which compiling failed. -/
def failureCount (lookups : List Lookup) : Nat :=
  lookups.countP fun lookup => !lookup.succeeded

namespace Compiler

/-- The lookups since the cache was last cleared, with what a further request adds. A request that
stops before a lookup adds nothing, and clearing the cache forgets all. -/
def noted (compiler : Compiler) (past : List Lookup) : Request → List Lookup
  | .clear => []
  | request =>
      match compiler.lookup? request with
      | some spec => ⟨spec, (compiler.compileSpec spec).result⟩ :: past
      | none => past

/-- The lookups since the cache was last cleared, the latest first, after a number of requests to
the compiler on top of those in the past. -/
def lookups (compiler : Compiler) (past : List Lookup) : List Request → List Lookup
  | [] => past
  | request :: requests => (compiler.next request).lookups (compiler.noted past request) requests

variable {compiler : Compiler} {request : Request} {spec : Spec}

/-- A request that stops before a lookup and clears nothing adds nothing. -/
theorem noted_of_lookup?_eq_none (hlookup : compiler.lookup? request = none)
    (hrequest : request ≠ .clear) (past : List Lookup) :
    compiler.noted past request = past := by
  cases request with
  | clear => exact absurd rfl hrequest
  | _ => simp only [noted, hlookup]

/-- A request that comes to a lookup adds it. -/
theorem noted_of_lookup? (hlookup : compiler.lookup? request = some spec) (past : List Lookup) :
    compiler.noted past request = ⟨spec, (compiler.compileSpec spec).result⟩ :: past := by
  cases request with
  | clear => cases hlookup
  | _ => simp only [noted, hlookup]

end Compiler

/-! ## Adding one lookup -/

section Cons

variable {lookups : List Lookup} {spec : Spec} {handle : Handle} {failure : Failure}

@[simp]
theorem compiledSpecs_nil : compiledSpecs [] = ∅ :=
  List.toFinset_nil

@[simp]
theorem compiledSpecs_cons_ok :
    compiledSpecs (⟨spec, .ok handle⟩ :: lookups) = insert spec (compiledSpecs lookups) := by
  rw [compiledSpecs, List.filter_cons_of_pos rfl, List.map_cons, List.toFinset_cons, compiledSpecs]

@[simp]
theorem compiledSpecs_cons_error :
    compiledSpecs (⟨spec, .error failure⟩ :: lookups) = compiledSpecs lookups := by
  rw [compiledSpecs, List.filter_cons_of_neg Bool.false_ne_true, compiledSpecs]

@[simp]
theorem failureCount_cons_ok :
    failureCount (⟨spec, .ok handle⟩ :: lookups) = failureCount lookups := by
  rw [failureCount, List.countP_cons_of_neg Bool.false_ne_true, failureCount]

@[simp]
theorem failureCount_cons_error :
    failureCount (⟨spec, .error failure⟩ :: lookups) = failureCount lookups + 1 := by
  rw [failureCount, List.countP_cons_of_pos rfl, failureCount]

end Cons

/-! ## The account of a cache -/

namespace Cache

/-- The specifications that a routine is kept for. -/
def specs (cache : Cache) : Finset Spec :=
  (cache.entries.map fun entry => entry.routine.spec).toFinset

/-- There are as many specifications as entries. -/
theorem card_specs (cache : Cache) : cache.specs.card = cache.size := by
  have hnodup : (cache.entries.map fun entry => entry.routine.spec).Nodup :=
    List.pairwise_map.2 cache.distinct
  rw [specs, List.toFinset_card_of_nodup hnodup, List.length_map, size]

/-- The cache accounts for the lookups since it was last cleared: all are counted, exactly the
specifications that were compiled with success have entries, and a miss led either to an entry or to
a failure, which has one of the known causes. -/
structure Accounts (isa : Isa) (cache : Cache) (lookups : List Lookup) : Prop where
  total : cache.hits + cache.misses = lookups.length
  specs : cache.specs = compiledSpecs lookups
  misses : cache.misses = cache.size + failureCount lookups
  noCode : ∀ lookup ∈ lookups, ∀ failure, lookup.result = .error failure →
    lookup.spec.NoCode isa failure

namespace Accounts

variable {isa : Isa} {cache : Cache} {past : List Lookup} {spec : Spec}

/-- A cleared cache accounts for no lookups. -/
theorem clear (cache : Cache) : Accounts isa cache.clear [] := by
  constructor
  case total => rfl
  case specs =>
    rw [compiledSpecs_nil]
    rfl
  case misses => rfl
  case noCode => exact fun lookup hlookup => absurd hlookup List.not_mem_nil

/-- A hit is accounted for by its count: the specification was compiled before. -/
theorem hit {handle : Handle} (h : Accounts isa cache past) (hspec : spec ∈ cache.specs) :
    Accounts isa { cache with hits := cache.hits + 1 } (⟨spec, .ok handle⟩ :: past) := by
  constructor
  case total =>
    have htotal := h.total
    rw [List.length_cons]
    show cache.hits + 1 + cache.misses = past.length + 1
    omega
  case specs =>
    rw [compiledSpecs_cons_ok, Finset.insert_eq_of_mem (h.specs ▸ hspec)]
    exact h.specs
  case misses =>
    rw [failureCount_cons_ok]
    exact h.misses
  case noCode =>
    refine List.forall_mem_cons.2 ⟨?_, h.noCode⟩
    rintro failure ⟨⟩

/-- A failure is accounted for by one more miss. -/
theorem failure {failure : Failure} (h : Accounts isa cache past)
    (hcode : spec.NoCode isa failure) :
    Accounts isa { cache with misses := cache.misses + 1 } (⟨spec, .error failure⟩ :: past) := by
  constructor
  case total =>
    rw [List.length_cons, ← h.total]
    rfl
  case specs =>
    rw [compiledSpecs_cons_error]
    exact h.specs
  case misses =>
    rw [failureCount_cons_error]
    exact congrArg (· + 1) h.misses
  case noCode =>
    refine List.forall_mem_cons.2 ⟨?_, h.noCode⟩
    rintro other ⟨⟩
    exact hcode

/-- A new routine is accounted for by one more miss and one more entry. -/
theorem entry {routine : Routine} {handle : Handle} (h : Accounts isa cache past)
    (hfind : cache.find? routine.spec = none) :
    Accounts isa (Cache.put { cache with misses := cache.misses + 1 } routine).2
      (⟨routine.spec, .ok handle⟩ :: past) := by
  have hentries : (Cache.put { cache with misses := cache.misses + 1 } routine).2.entries =
      ⟨cache.nextSerial, routine⟩ :: cache.entries := entries_put hfind
  constructor
  case total =>
    rw [List.length_cons, ← h.total]
    rfl
  case specs =>
    rw [compiledSpecs_cons_ok, ← h.specs, Cache.specs, hentries]
    exact List.toFinset_cons
  case misses =>
    have hmisses := h.misses
    rw [failureCount_cons_ok, size, hentries, List.length_cons]
    show cache.misses + 1 = cache.size + 1 + failureCount past
    omega
  case noCode =>
    refine List.forall_mem_cons.2 ⟨?_, h.noCode⟩
    rintro failure ⟨⟩

variable {compiler : Compiler}

/-- A further request is accounted for. -/
theorem next (h : Accounts compiler.isa compiler.cache past) (request : Request) :
    Accounts compiler.isa (compiler.next request).cache (compiler.noted past request) := by
  cases compiler.effect request with
  | none hrequest hlookup hnext =>
      rw [hnext, Compiler.noted_of_lookup?_eq_none hlookup hrequest]
      exact h
  | cleared hrequest hnext =>
      rw [hnext, hrequest]
      exact clear compiler.cache
  | found spec handle hlookup hfind hresult hnext =>
      rw [hnext, Compiler.noted_of_lookup? hlookup, hresult]
      obtain ⟨hmem, rfl⟩ := of_find?_eq_some hfind
      exact h.hit (List.mem_toFinset.2 (List.mem_map_of_mem hmem))
  | failed spec failure hlookup hcode hresult hnext =>
      rw [hnext, Compiler.noted_of_lookup? hlookup, hresult]
      exact h.failure (generate_eq_error_iff.1 hcode)
  | built routine hlookup hfind hcode hresult hnext =>
      rw [hnext, Compiler.noted_of_lookup? hlookup, hresult]
      exact h.entry hfind

/-- A session is accounted for. -/
theorem after (h : Accounts compiler.isa compiler.cache past) (requests : List Request) :
    Accounts compiler.isa (compiler.after requests).cache (compiler.lookups past requests) := by
  induction requests generalizing compiler past with
  | nil => exact h
  | cons request requests ih =>
      have hisa := (compiler.settings_next request).1
      exact hisa ▸ ih (hisa.symm ▸ h.next request)

end Accounts

end Cache

namespace Compiler

/-- In a session that starts without routines and counts, the hits and misses are the lookups since
the cache was last cleared, its entries are the specifications that were compiled with success since
then, each once, and the misses are the entries and the failures, each of which has one of the known
causes. A further request that stops before a lookup and clears nothing leaves the compiler as it
was, and one that fails after it leaves one more miss. -/
theorem accounts_after {start : Compiler} (hstart : start.cache = {}) (requests : List Request) :
    ((start.after requests).cache.hits + (start.after requests).cache.misses =
        (start.lookups [] requests).length ∧
      (start.after requests).cache.size = (compiledSpecs (start.lookups [] requests)).card ∧
      (start.after requests).cache.misses =
        (start.after requests).cache.size + failureCount (start.lookups [] requests) ∧
      ∀ lookup ∈ start.lookups [] requests, ∀ failure, lookup.result = .error failure →
        lookup.spec.NoCode start.isa failure) ∧
    ∀ request ≠ Request.clear,
      ((start.after requests).lookup? request = none →
        (start.after requests).next request = start.after requests) ∧
      ∀ spec failure, (start.after requests).lookup? request = some spec →
        ((start.after requests).compileSpec spec).result = .error failure →
        (start.after requests).next request =
          { start.after requests with
            cache := { (start.after requests).cache with
              misses := (start.after requests).cache.misses + 1 } } := by
  have hnew : start.cache.Accounts start.isa [] := by
    rw [hstart]
    exact .clear {}
  have haccounts := hnew.after requests
  refine ⟨⟨haccounts.total, ?_, haccounts.misses, haccounts.noCode⟩, ?_⟩
  · rw [← haccounts.specs, Cache.card_specs]
  · intro request hrequest
    exact ⟨fun hlookup => next_of_lookup?_eq_none hlookup hrequest,
      fun spec failure hlookup hfailure => next_of_compileSpec_error hlookup hfailure⟩

/-- After a clearing, a concatenation of bytes is compiled, its plan is looked up again, a
specification fails whose vectors the level does not have, a concatenation without a plan is
compiled, and the first one is prepared without clamping: one hit and three misses are counted, for
two entries and one failure. -/
theorem accounts_after_bytes :
    let inputs : List Tensor :=
      [.interleaved .u8 ⟨1, 2, 2, 32⟩, .interleaved .u8 ⟨1, 2, 2, 96⟩]
    let output : Tensor := .interleaved .u8 ⟨1, 2, 2, 128⟩
    let spec : Spec := ⟨2, true, .u8, 1, 32, 256, ⟨1, 2, 2, 128⟩⟩
    let wide : Spec := { spec with block := 64, bits := 512 }
    let odd : List Tensor := [.interleaved .u8 ⟨1, 2, 2, 127⟩, .interleaved .u8 ⟨1, 2, 2, 1⟩]
    let start : Compiler := { host := .avx2, isa := .avx2 }
    let requests : List Request :=
      [.compileSpec spec, .clear, .compile inputs output true, .compileSpec spec,
        .compileSpec wide, .compile odd output true, .prepare inputs output false]
    start.cache = {} ∧
      (start.after requests).cache.hits = 1 ∧ (start.after requests).cache.misses = 3 ∧
      (start.lookups [] requests).length = 4 ∧
      (compiledSpecs (start.lookups [] requests)).card = 2 ∧
      failureCount (start.lookups [] requests) = 1 ∧
      (start.after requests).next (.compile odd output true) = start.after requests := by
  intro inputs output spec wide odd start requests
  have hhits : (start.after requests).cache.hits = 1 := by decide +kernel
  have hmisses : (start.after requests).cache.misses = 3 := by decide +kernel
  have hsize : (start.after requests).cache.size = 2 := by decide +kernel
  have hodd : (start.after requests).lookup? (.compile odd output true) = none := by
    decide +kernel
  obtain ⟨⟨htotal, hcard, hfailures, -⟩, hstep⟩ := @accounts_after start rfl requests
  refine ⟨rfl, hhits, hmisses, ?_, ?_, ?_, (hstep (.compile odd output true) (by simp)).1 hodd⟩
  · rw [← htotal, hhits, hmisses]
  · rw [← hcard, hsize]
  · omega

end Compiler

end ChannelConcat
