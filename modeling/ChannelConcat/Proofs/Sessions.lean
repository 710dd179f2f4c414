import ChannelConcat.Proofs.Requests

/-!
# Sessions

Every routine that is at hand in a session has the code that its specification generates, whatever
was asked for before. Main definition: `Compiler.Sound`. Main statements: `Compiler.Sound.after`,
`Compiler.Sound.isGenerated_of_handed?`.
-/

namespace ChannelConcat

/-- The code of the routine is what its specification generates. -/
def Handle.IsGenerated (isa : Isa) (handle : Handle) : Prop :=
  generate isa handle.routine.spec = .ok handle.routine.code

namespace Compiler

/-- A compiler for the level whose cache holds generated routines only. -/
structure Sound (isa : Isa) (compiler : Compiler) : Prop where
  isa_eq : compiler.isa = isa
  generated : ∀ handle ∈ compiler.cache.entries, handle.IsGenerated isa

variable {isa : Isa} {compiler : Compiler} {request : Request} {handle : Handle}

/-- A compiler with an empty cache is sound. -/
theorem sound_of_entries_eq_nil (h : compiler.cache.entries = []) : compiler.Sound compiler.isa :=
  ⟨rfl, fun _ hmem => absurd (h ▸ hmem) List.not_mem_nil⟩

/-! ## One request -/

/-- A routine that is put into a cache is kept beside those that were there. -/
theorem Sound.put (h : compiler.Sound isa) {routine : Routine} (cache : Cache)
    (hcache : cache.entries = compiler.cache.entries)
    (hcode : generate isa routine.spec = .ok routine.code) :
    { compiler with cache := (cache.put routine).2 : Compiler }.Sound isa := by
  refine ⟨h.isa_eq, ?_⟩
  intro entry hentry
  rcases List.mem_cons.1 hentry with rfl | hother
  · exact hcode
  · exact h.generated entry (hcache ▸ (List.mem_filter.1 hother).1)

/-- A request leaves a sound compiler sound. -/
theorem Sound.next (h : compiler.Sound isa) (request : Request) :
    (compiler.next request).Sound isa := by
  cases compiler.effect request with
  | none hrequest hlookup hnext =>
      rw [hnext]
      exact h
  | cleared hrequest hnext =>
      rw [hnext]
      exact ⟨h.isa_eq, nofun⟩
  | found spec handle hlookup hfind hresult hnext =>
      rw [hnext]
      exact ⟨h.isa_eq, h.generated⟩
  | failed spec failure hlookup hcode hresult hnext =>
      -- A failure after the lookup leaves the counted miss, but no entry.
      rw [hnext]
      exact ⟨h.isa_eq, h.generated⟩
  | built routine hlookup hfind hcode hresult hnext =>
      rw [hnext]
      exact h.put _ rfl (h.isa_eq ▸ hcode)

/-- Every routine that a sound compiler hands out is a generated one. -/
theorem Sound.isGenerated_of_handed? (h : compiler.Sound isa)
    (hhanded : compiler.handed? request = some handle) : handle.IsGenerated isa := by
  cases handsOut_of_handed? hhanded with
  | found hlookup hfind hnext => exact h.generated handle (Cache.of_find?_eq_some hfind).1
  | built hlookup hfind hcode hserial hnext => exact h.isa_eq ▸ hcode

/-- The routine of a prepared concatenation is a generated one, and so are those that are kept
then. -/
theorem Sound.prepare (h : compiler.Sound isa) (inputs : List Tensor) (output : Tensor)
    (relu : Bool) :
    (Concat.prepare compiler inputs output relu).compiler.Sound isa ∧
      ∀ concat handle counts, (Concat.prepare compiler inputs output relu).result = .ok concat →
        concat.kernel = .generated handle counts → handle.IsGenerated isa := by
  refine ⟨h.next (.prepare inputs output relu), ?_⟩
  intro concat handle counts hconcat hkernel
  have hhanded : compiler.handed? (.prepare inputs output relu) = some handle := by
    rw [handed?, hconcat]
    show concat.handle? = some handle
    rw [Concat.handle?, hkernel]
  exact h.isGenerated_of_handed? hhanded

/-! ## Any number of requests -/

/-- Any number of requests leaves a sound compiler sound. -/
theorem Sound.after (h : compiler.Sound isa) (requests : List Request) :
    (compiler.after requests).Sound isa :=
  after_of_next h fun _ hsound request _ => hsound.next request

end Compiler

end ChannelConcat
