import ChannelConcat.Routine

/-!
# The cache of routines

Routines are shared through handles: two handles stand for the same shared routine exactly when
their serial numbers agree. The cache keeps at most one handle for each specification and counts the
lookups that found one and those that did not. Handles that were given out stay valid whatever
happens to the cache. Main statement: `Cache.find?_put`.
-/

namespace ChannelConcat

/-- A shared routine. -/
structure Handle where
  /-- The number that tells this shared routine from all others. -/
  serial : Nat
  routine : Routine

/-- The routines at hand, with the counts of lookups since the cache was last cleared. -/
structure Cache where
  entries : List Handle := []
  /-- No two handles are kept for one specification. -/
  distinct : entries.Pairwise fun a b => a.routine.spec ≠ b.routine.spec := by exact .nil
  hits : Nat := 0
  misses : Nat := 0
  /-- The serial number of the next handle; it also grows across clearing. -/
  nextSerial : Nat := 0

namespace Cache

/-- The handle kept for a specification, if there is one. -/
def find? (cache : Cache) (spec : Spec) : Option Handle :=
  cache.entries.find? fun handle => handle.routine.spec = spec

/-- Look up a specification and count the lookup as a hit or a miss. -/
def get (cache : Cache) (spec : Spec) : Option Handle × Cache :=
  match cache.find? spec with
  | some handle => (some handle, { cache with hits := cache.hits + 1 })
  | none => (none, { cache with misses := cache.misses + 1 })

/-- Share a routine and keep its handle in place of any other for the same specification. -/
def put (cache : Cache) (routine : Routine) : Handle × Cache :=
  let handle : Handle := ⟨cache.nextSerial, routine⟩
  let others := cache.entries.filter fun entry => entry.routine.spec ≠ routine.spec
  (handle,
    { cache with
      entries := handle :: others
      distinct := List.pairwise_cons.2
        ⟨fun _ hentry => Ne.symm (of_decide_eq_true (List.mem_filter.1 hentry).2),
          cache.distinct.filter _⟩
      nextSerial := cache.nextSerial + 1 })

/-- Drop all handles and set both counts to zero. -/
def clear (cache : Cache) : Cache :=
  { cache with entries := [], distinct := .nil, hits := 0, misses := 0 }

/-- The number of specifications that have a routine. -/
def size (cache : Cache) : Nat :=
  cache.entries.length

/-- No specification has a routine. -/
def isEmpty (cache : Cache) : Bool :=
  cache.entries.isEmpty

/-- After a routine is put, its specification leads to it and every other leads where it did. -/
theorem find?_put (cache : Cache) (routine : Routine) (spec : Spec) :
    (cache.put routine).2.find? spec =
      if routine.spec = spec then some (cache.put routine).1 else cache.find? spec := by
  by_cases h : routine.spec = spec
  · simp [put, find?, h]
  · simp only [put, find?, List.find?_cons, h, decide_false, if_false, List.find?_filter]
    congr 1
    funext entry
    by_cases hentry : entry.routine.spec = spec
    · simp [hentry, Ne.symm h]
    · simp [hentry]

end Cache

end ChannelConcat
