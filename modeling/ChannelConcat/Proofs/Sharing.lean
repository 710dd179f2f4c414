import ChannelConcat.Proofs.Sessions

/-!
# Sharing

Two requests of a session hand out the same shared routine exactly if it is for the same
specification and the cache was not cleared in between. The number of a handle is what tells: a
number that has been given out is never given out again, and no other handle carries it. Main
definition: `Cache.Issued`. Main statement: `Compiler.shared_of_handed?`.
-/

namespace ChannelConcat

/-- The number of the handle has been given out, and no other handle that is kept carries it. -/
structure Cache.Issued (cache : Cache) (handle : Handle) : Prop where
  lt : handle.serial < cache.nextSerial
  unique : ∀ entry ∈ cache.entries, entry.serial = handle.serial → entry = handle

namespace Compiler

variable {compiler : Compiler} {handle other : Handle} {request : Request}

/-! ## One request -/

/-- What a request does to the handles that are kept and to the next number. -/
inductive Keeps (compiler : Compiler) (request : Request) : Prop
  /-- Nothing is dropped and nothing is added. -/
  | same (hentries : (compiler.next request).cache.entries = compiler.cache.entries)
      (hserial : (compiler.next request).cache.nextSerial = compiler.cache.nextSerial)
  /-- All handles are dropped. -/
  | cleared (hrequest : request = .clear)
      (hentries : (compiler.next request).cache.entries = [])
      (hserial : (compiler.next request).cache.nextSerial = compiler.cache.nextSerial)
  /-- A handle with the next number is added, for a specification that none was kept for. -/
  | added (routine : Routine) (hfind : compiler.cache.find? routine.spec = none)
      (hentries : (compiler.next request).cache.entries =
        ⟨compiler.cache.nextSerial, routine⟩ :: compiler.cache.entries)
      (hserial : (compiler.next request).cache.nextSerial = compiler.cache.nextSerial + 1)

/-- Every request does one of these things. -/
theorem keeps (compiler : Compiler) (request : Request) : Keeps compiler request := by
  cases compiler.effect request with
  | none hrequest hlookup hnext => exact .same (by rw [hnext]) (by rw [hnext])
  | cleared hrequest hnext => exact .cleared hrequest (by rw [hnext]; rfl) (by rw [hnext]; rfl)
  | found spec found hlookup hfind hresult hnext => exact .same (by rw [hnext]) (by rw [hnext])
  | failed spec failure hlookup hcode hresult hnext =>
      exact .same (by rw [hnext]) (by rw [hnext])
  | built routine hlookup hfind hcode hresult hnext =>
      exact .added routine hfind (by rw [hnext]; exact Cache.entries_put hfind)
        (by rw [hnext]; rfl)

/-- A number that has been given out stays with its handle. -/
theorem issued_next (h : compiler.cache.Issued handle) (request : Request) :
    (compiler.next request).cache.Issued handle := by
  cases compiler.keeps request with
  | same hentries hserial => exact ⟨hserial ▸ h.lt, hentries ▸ h.unique⟩
  | cleared hrequest hentries hserial => exact ⟨hserial ▸ h.lt, hentries ▸ nofun⟩
  | added routine hfind hentries hserial =>
      refine ⟨hserial ▸ Nat.lt_succ_of_lt h.lt, ?_⟩
      intro entry hentry hsame
      rw [hentries] at hentry
      rcases List.mem_cons.1 hentry with rfl | hkept
      · exact absurd hsame (Nat.ne_of_gt h.lt)
      · exact h.unique entry hkept hsame

/-- The numbers of all handles that are kept have been given out. -/
theorem issued_entries_next (h : ∀ entry ∈ compiler.cache.entries, compiler.cache.Issued entry)
    (request : Request) :
    ∀ entry ∈ (compiler.next request).cache.entries,
      (compiler.next request).cache.Issued entry := by
  intro entry hentry
  have hkept (hmem : entry ∈ compiler.cache.entries) :
      (compiler.next request).cache.Issued entry := issued_next (h entry hmem) request
  cases compiler.keeps request with
  | same hentries hserial => exact hkept (hentries ▸ hentry)
  | cleared hrequest hentries hserial =>
      rw [hentries] at hentry
      cases hentry
  | added routine hfind hentries hserial =>
      rw [hentries] at hentry
      rcases List.mem_cons.1 hentry with rfl | hmem
      · refine ⟨hserial ▸ Nat.lt_succ_self _, ?_⟩
        intro old hold hsame
        rw [hentries] at hold
        rcases List.mem_cons.1 hold with rfl | hearlier
        · rfl
        · exact absurd hsame (Nat.ne_of_lt (h old hearlier).lt)
      · exact hkept hmem

/-- A handle that is kept for its specification stays so until the cache is cleared. -/
theorem find?_next (h : compiler.cache.find? handle.routine.spec = some handle)
    (hrequest : request ≠ .clear) :
    (compiler.next request).cache.find? handle.routine.spec = some handle := by
  cases compiler.keeps request with
  | same hentries hserial =>
      rw [Cache.find?, hentries]
      exact h
  | cleared hclear hentries hserial => exact absurd hclear hrequest
  | added routine hfind hentries hserial =>
      have hne : routine.spec ≠ handle.routine.spec := by
        intro hspec
        rw [hspec, h] at hfind
        cases hfind
      rw [Cache.find?, hentries, List.find?_cons_of_neg (by simpa using hne)]
      exact h

/-- A handle that is no longer kept never comes back. -/
theorem not_mem_entries_next (hissued : compiler.cache.Issued handle)
    (h : handle ∉ compiler.cache.entries) (request : Request) :
    handle ∉ (compiler.next request).cache.entries := by
  cases compiler.keeps request with
  | same hentries hserial => rwa [hentries]
  | cleared hrequest hentries hserial =>
      rw [hentries]
      exact List.not_mem_nil
  | added routine hfind hentries hserial =>
      rw [hentries]
      intro hmem
      rcases List.mem_cons.1 hmem with rfl | hkept
      · exact absurd hissued.lt (Nat.lt_irrefl _)
      · exact h hkept

/-- A handle that is handed out is kept for its specification from then on. -/
theorem find?_of_handed? (h : compiler.handed? request = some handle) :
    (compiler.next request).cache.find? handle.routine.spec = some handle := by
  cases handsOut_of_handed? h with
  | found hlookup hfind hnext =>
      rw [hnext]
      exact hfind
  | built hlookup hfind hcode hserial hnext =>
      rw [hnext, Cache.find?_put, if_pos rfl]
      show some (Handle.mk compiler.cache.nextSerial handle.routine) = some handle
      rw [← hserial]

/-- A handle that is handed out with a number that was given out before is the handle of that
number, and is kept. -/
theorem eq_of_handed?_of_serial_eq (hissued : compiler.cache.Issued handle)
    (h : compiler.handed? request = some other) (hserial : handle.serial = other.serial) :
    handle = other ∧ handle ∈ compiler.cache.entries := by
  cases handsOut_of_handed? h with
  | found hlookup hfind hnext =>
      have hmem := (Cache.of_find?_eq_some hfind).1
      obtain rfl := hissued.unique other hmem hserial.symm
      exact ⟨rfl, hmem⟩
  | built hlookup hfind hcode hnew hnext =>
      have hlt := hissued.lt
      rw [hserial, hnew] at hlt
      exact absurd hlt (Nat.lt_irrefl _)

/-- Where a handle is kept for a specification, it is the one that is handed out for it. -/
theorem eq_of_handed?_of_spec_eq
    (hkept : compiler.cache.find? handle.routine.spec = some handle)
    (h : compiler.handed? request = some other)
    (hspec : handle.routine.spec = other.routine.spec) : handle = other := by
  rw [hspec] at hkept
  cases handsOut_of_handed? h with
  | found hlookup hfind hnext => exact Option.some.inj (hkept.symm.trans hfind)
  | built hlookup hfind hcode hserial hnext => cases hkept.symm.trans hfind

/-! ## Any number of requests -/

/-- A number that has been given out stays with its handle for the whole session. -/
theorem issued_after (h : compiler.cache.Issued handle) (requests : List Request) :
    (compiler.after requests).cache.Issued handle :=
  after_of_next (p := fun later => later.cache.Issued handle) h
    fun _ hissued request _ => issued_next hissued request

/-- The numbers of all handles that are kept in a session have been given out. -/
theorem issued_entries_after (h : ∀ entry ∈ compiler.cache.entries, compiler.cache.Issued entry)
    (requests : List Request) :
    ∀ entry ∈ (compiler.after requests).cache.entries,
      (compiler.after requests).cache.Issued entry :=
  after_of_next (p := fun later => ∀ entry ∈ later.cache.entries, later.cache.Issued entry) h
    fun _ hissued request _ => issued_entries_next hissued request

/-- A handle stays kept for its specification while the cache is not cleared. -/
theorem find?_after (h : compiler.cache.find? handle.routine.spec = some handle)
    {requests : List Request} (hclear : .clear ∉ requests) :
    (compiler.after requests).cache.find? handle.routine.spec = some handle :=
  after_of_next (p := fun later => later.cache.find? handle.routine.spec = some handle) h
    fun _ hkept _ hrequest => find?_next hkept fun heq => hclear (heq ▸ hrequest)

/-- Clearing the cache drops all handles for good. -/
theorem not_mem_entries_of_clear (hissued : compiler.cache.Issued handle)
    {requests : List Request} (hclear : .clear ∈ requests) :
    handle ∉ (compiler.after requests).cache.entries := by
  obtain ⟨before, rest, rfl⟩ := List.append_of_mem hclear
  rw [after_append]
  have hbefore := issued_next (issued_after hissued before) .clear
  have hrest : (((compiler.after before).next .clear).after rest).cache.Issued handle ∧
      handle ∉ (((compiler.after before).next .clear).after rest).cache.entries :=
    after_of_next (p := fun later => later.cache.Issued handle ∧ handle ∉ later.cache.entries)
      ⟨hbefore, List.not_mem_nil⟩ fun _ hdropped request _ =>
        ⟨issued_next hdropped.1 request, not_mem_entries_next hdropped.1 hdropped.2 request⟩
  exact hrest.2

/-- In a session that starts without routines, a routine that is handed out is of the specification
that was looked up for the request, has the code that is generated for it, and is what the compiler
would have built at the start. A later request hands out the same shared routine exactly if it is
for the same specification and the cache was not cleared in between. -/
theorem shared_of_handed? {start : Compiler} (hstart : start.cache = {}) {before : List Request}
    {first : Request} {handle : Handle}
    (hfirst : (start.after before).handed? first = some handle) :
    ((start.after before).lookup? first = some handle.routine.spec ∧
      generate start.isa handle.routine.spec = .ok handle.routine.code ∧
      (start.compileSpec handle.routine.spec).result = .ok ⟨0, handle.routine⟩) ∧
    ∀ (between : List Request) (second : Request) (other : Handle),
      (start.after (before ++ first :: between)).handed? second = some other →
        (handle.serial = other.serial ↔
          handle.routine.spec = other.routine.spec ∧ .clear ∉ between) ∧
        (handle.serial = other.serial → handle = other) := by
  have hentries : start.cache.entries = [] := by rw [hstart]
  have hsound := (sound_of_entries_eq_nil hentries).after before
  have hcode : generate start.isa handle.routine.spec = .ok handle.routine.code :=
    hsound.isGenerated_of_handed? hfirst
  have hkept := find?_of_handed? hfirst
  have hissued : ((start.after before).next first).cache.Issued handle := by
    refine issued_entries_next (issued_entries_after ?_ before) first handle
      (Cache.of_find?_eq_some hkept).1
    exact hentries ▸ fun _ hentry => absurd hentry List.not_mem_nil
  refine ⟨⟨lookup?_of_handed? hfirst, hcode, ?_⟩, ?_⟩
  · have hgenerate := generate_of_lookup? (lookup?_of_handed? hfirst)
    rw [(settings_after start before).2] at hgenerate
    have hnone : start.cache.find? handle.routine.spec = none := by
      rw [hstart]
      rfl
    rw [compileSpec_of_miss hgenerate hnone hcode, hstart]
    rfl
  · intro between second other hsecond
    rw [after_append] at hsecond
    have hlater := issued_after hissued between
    refine ⟨⟨?_, ?_⟩, fun hserial => (eq_of_handed?_of_serial_eq hlater hsecond hserial).1⟩
    · intro hserial
      obtain ⟨rfl, hmem⟩ := eq_of_handed?_of_serial_eq hlater hsecond hserial
      exact ⟨rfl, fun hclear => not_mem_entries_of_clear hissued hclear hmem⟩
    · rintro ⟨hspec, hclear⟩
      rw [eq_of_handed?_of_spec_eq (find?_after hkept hclear) hsecond hspec]

/-- After a failure and a request that only plans, a concatenation of bytes is compiled. Its plan
leads to the same shared routine when it is compiled later, with another routine in between; after
clearing the cache, the concatenation is prepared with a routine of its own. -/
theorem shared_of_handed?_bytes :
    let inputs : List Tensor :=
      [.interleaved .u8 ⟨1, 2, 2, 32⟩, .interleaved .u8 ⟨1, 2, 2, 96⟩]
    let output : Tensor := .interleaved .u8 ⟨1, 2, 2, 128⟩
    let spec : Spec := ⟨2, true, .u8, 1, 32, 256, ⟨1, 2, 2, 128⟩⟩
    let wide : Spec := { spec with block := 64, bits := 512 }
    let narrow : Spec := { spec with block := 16, bits := 128 }
    let start : Compiler := { host := .avx2, isa := .avx2 }
    let before : List Request := [.compileSpec wide, .plan inputs output false]
    let first : Request := .compile inputs output true
    let between : List Request := [.compileSpec narrow, .compileSpec wide]
    start.cache = {} ∧ ∃ handle same new,
      (start.after before).handed? first = some handle ∧
      (start.after (before ++ first :: between)).handed? (.compileSpec spec) = some same ∧
      (start.after (before ++ first :: (between ++ [.clear]))).handed?
        (.prepare inputs output true) = some new ∧
      handle.serial = same.serial ∧ handle.serial ≠ new.serial := by
  intro inputs output spec wide narrow start before first between
  have hfirst : ((start.after before).handed? first).isSome = true := by decide +kernel
  have hsecond : ((start.after (before ++ first :: between)).handed?
      (.compileSpec spec)).isSome = true := by decide +kernel
  have hthird : ((start.after (before ++ first :: (between ++ [.clear]))).handed?
      (.prepare inputs output true)).isSome = true := by decide +kernel
  obtain ⟨handle, hhandle⟩ := Option.isSome_iff_exists.1 hfirst
  obtain ⟨same, hsame⟩ := Option.isSome_iff_exists.1 hsecond
  obtain ⟨new, hnew⟩ := Option.isSome_iff_exists.1 hthird
  obtain ⟨⟨hlookup, -, -⟩, hshared⟩ := @shared_of_handed? start rfl before first handle hhandle
  have hplan : (start.after before).lookup? first = some spec := by decide +kernel
  have hlater : (start.after (before ++ first :: between)).lookup? (.compileSpec spec) =
      some spec := by decide +kernel
  have hspec : handle.routine.spec = same.routine.spec := by
    rw [hplan] at hlookup
    rw [lookup?_of_handed? hsame] at hlater
    rw [← Option.some.inj hlookup, Option.some.inj hlater]
  refine ⟨rfl, handle, same, new, hhandle, hsame, hnew, ?_, ?_⟩
  · exact (hshared between _ same hsame).1.2 ⟨hspec, by simp [between]⟩
  · intro hserial
    exact ((hshared _ _ new hnew).1.1 hserial).2 (by simp)

end Compiler

end ChannelConcat
