import ChannelConcat.Proofs.Preparation

/-!
# Requests

A session is a number of requests to one compiler, each to the compiler that the requests before it
left. A request comes to at most one lookup in the cache, and nothing but that lookup decides what
the request makes of the compiler and which routine it hands out. Main definitions: `Request`,
`Compiler.after`, `Compiler.lookup?`, `Compiler.handed?`. Main statements: `Compiler.effect`,
`Compiler.handsOut_of_handed?`.
-/

namespace ChannelConcat

/-- A request to a compiler. -/
inductive Request where
  | plan (inputs : List Tensor) (output : Tensor) (relu : Bool)
  | compile (inputs : List Tensor) (output : Tensor) (relu : Bool)
  | compileSpec (spec : Spec)
  | prepare (inputs : List Tensor) (output : Tensor) (relu : Bool)
  | clear

/-- The generated routine that fills the rows, if there is one. -/
def Concat.handle? (concat : Concat) : Option Handle :=
  match concat.kernel with
  | .generated handle _ => some handle
  | .scalar => none

/-- A result that gives a value is that value. -/
theorem ok_of_toOption {α : Type} {result : Except Failure α} {value : α}
    (h : result.toOption = some value) : result = .ok value := by
  cases result with
  | error failure => cases h
  | ok found => rw [Option.some.inj h]

/-- A routine for a specification that nothing is kept for is kept beside all others. -/
theorem Cache.entries_put {cache : Cache} {routine : Routine}
    (h : cache.find? routine.spec = none) :
    (cache.put routine).2.entries = ⟨cache.nextSerial, routine⟩ :: cache.entries := by
  have hothers : ∀ entry ∈ cache.entries, decide (entry.routine.spec ≠ routine.spec) = true := by
    intro entry hentry
    simpa using List.find?_eq_none.1 h entry hentry
  exact congrArg (List.cons _) (List.filter_eq_self.2 hothers)

namespace Compiler

/-- The compiler after a request, whatever the result. -/
def next (compiler : Compiler) : Request → Compiler
  | .plan inputs output relu => (compiler.plan inputs output relu).compiler
  | .compile inputs output relu => (compiler.compile inputs output relu).compiler
  | .compileSpec spec => (compiler.compileSpec spec).compiler
  | .prepare inputs output relu => (Concat.prepare compiler inputs output relu).compiler
  | .clear => compiler.clear

/-- The compiler after a number of requests. -/
def after (compiler : Compiler) (requests : List Request) : Compiler :=
  requests.foldl next compiler

/-- The specification that a request looks up in the cache. There is none where the request stops
before: the compiler may not generate code, the shapes have a defect, generated code cannot run
here, or there is no plan. -/
def lookup? (compiler : Compiler) : Request → Option Spec
  | .compile inputs output relu =>
      if compiler.options.generate = true then
        (ChannelConcat.plan compiler.maxBits inputs output relu).toOption
      else none
  | .compileSpec spec => if compiler.options.generate = true then some spec else none
  | .prepare inputs output relu =>
      if Shape.defect inputs output = none ∧ compiler.canRun = true then
        (ChannelConcat.plan compiler.maxBits inputs output relu).toOption
      else none
  | .plan _ _ _ | .clear => none

/-- The routine that a request hands out, if it succeeds with one. -/
def handed? (compiler : Compiler) : Request → Option Handle
  | .compile inputs output relu => (compiler.compile inputs output relu).result.toOption
  | .compileSpec spec => (compiler.compileSpec spec).result.toOption
  | .prepare inputs output relu =>
      (Concat.prepare compiler inputs output relu).result.toOption.bind Concat.handle?
  | .plan _ _ _ | .clear => none

/-- The requests of a session can be made in two parts. -/
theorem after_append (compiler : Compiler) (first second : List Request) :
    compiler.after (first ++ second) = (compiler.after first).after second :=
  List.foldl_append

/-- What holds of a compiler and is kept by each request of a session holds after the session. -/
theorem after_of_next {p : Compiler → Prop} {compiler : Compiler} {requests : List Request}
    (h : p compiler)
    (hnext : ∀ compiler, p compiler → ∀ request ∈ requests, p (compiler.next request)) :
    p (compiler.after requests) :=
  List.foldlRecOn requests next h hnext

variable {compiler : Compiler} {request : Request} {spec : Spec} {handle : Handle}
  {inputs : List Tensor} {output : Tensor} {relu : Bool}

/-! ## The compiler that each kind of request leaves -/

/-- Planning leaves the compiler as it was. -/
theorem compiler_plan (inputs : List Tensor) (output : Tensor) (relu : Bool)
    (compiler : Compiler) : (compiler.plan inputs output relu).compiler = compiler := by
  rw [Compiler.plan]
  split <;> rfl

/-- Compiling a concatenation leaves the compiler that compiling its plan leaves. -/
theorem compiler_compile_of_plan
    (hplan : ChannelConcat.plan compiler.maxBits inputs output relu = .ok spec) :
    (compiler.compile inputs output relu).compiler = (compiler.compileSpec spec).compiler := by
  simp only [compile, Compiler.plan, hplan, Response.andThen]

/-- A concatenation without a plan leaves the compiler as it was. -/
theorem compiler_compile_of_plan_error {failure : Failure}
    (hplan : ChannelConcat.plan compiler.maxBits inputs output relu = .error failure) :
    (compiler.compile inputs output relu).compiler = compiler := by
  simp only [compile, Compiler.plan, hplan, Response.andThen]

/-- A compiler that may not generate code compiles nothing and stays as it was. -/
theorem compiler_compile_of_disabled (hgenerate : ¬ compiler.options.generate = true) :
    (compiler.compile inputs output relu).compiler = compiler := by
  cases hplan : ChannelConcat.plan compiler.maxBits inputs output relu with
  | error failure => exact compiler_compile_of_plan_error hplan
  | ok spec => rw [compiler_compile_of_plan hplan, compileSpec_of_disabled hgenerate]

/-- Shapes without a defect are prepared by compiling them where generated code can run, whatever
comes of it. -/
theorem compiler_prepare_of_canRun (hdefect : Shape.defect inputs output = none)
    (hcan : compiler.canRun = true) :
    (Concat.prepare compiler inputs output relu).compiler =
      (compiler.compile inputs output relu).compiler := by
  have hkernel : (Concat.chooseKernel compiler inputs output relu).compiler =
      (compiler.compile inputs output relu).compiler := by
    simp only [Concat.chooseKernel, if_pos hcan]
    split
    · rfl
    · split <;> rfl
    · rfl
  rw [Concat.prepare, hdefect, ← hkernel]
  simp only [Response.andThen]
  split <;> rfl

/-- Shapes with a defect leave the compiler as it was, and so do all shapes where generated code
cannot run. -/
theorem compiler_prepare_of_not
    (h : ¬ (Shape.defect inputs output = none ∧ compiler.canRun = true)) :
    (Concat.prepare compiler inputs output relu).compiler = compiler := by
  rw [Concat.prepare]
  cases hdefect : Shape.defect inputs output with
  | some defect => rfl
  | none =>
      have hcan : ¬ compiler.canRun = true := fun hcan => h ⟨hdefect, hcan⟩
      rw [Concat.chooseKernel, if_neg hcan]
      rfl

/-! ## Lookups -/

/-- A request that comes to a lookup is one to a compiler that may generate code. -/
theorem generate_of_lookup? (h : compiler.lookup? request = some spec) :
    compiler.options.generate = true := by
  cases request with
  | plan inputs output relu => cases h
  | clear => cases h
  | compile inputs output relu =>
      rw [lookup?] at h
      split at h
      · assumption
      · cases h
  | compileSpec spec =>
      rw [lookup?] at h
      split at h
      · assumption
      · cases h
  | prepare inputs output relu =>
      rw [lookup?] at h
      split at h
      · exact Concat.generate_of_canRun (And.right ‹_›)
      · cases h

/-- A request that comes to a lookup leaves the compiler that compiling what it looks up leaves. -/
theorem next_of_lookup? (h : compiler.lookup? request = some spec) :
    compiler.next request = (compiler.compileSpec spec).compiler := by
  have hgenerate := generate_of_lookup? h
  cases request with
  | plan inputs output relu => cases h
  | clear => cases h
  | compile inputs output relu =>
      rw [lookup?, if_pos hgenerate] at h
      exact compiler_compile_of_plan (ok_of_toOption h)
  | compileSpec spec =>
      rw [lookup?, if_pos hgenerate] at h
      rw [next, Option.some.inj h]
  | prepare inputs output relu =>
      rw [lookup?] at h
      split at h
      · rename_i hready
        rw [next, compiler_prepare_of_canRun hready.1 hready.2]
        exact compiler_compile_of_plan (ok_of_toOption h)
      · cases h

/-- A request that stops before a lookup leaves the compiler as it was, unless it clears the
cache. -/
theorem next_of_lookup?_eq_none (h : compiler.lookup? request = none) (hclear : request ≠ .clear) :
    compiler.next request = compiler := by
  cases request with
  | plan inputs output relu => exact compiler_plan inputs output relu compiler
  | clear => exact absurd rfl hclear
  | compile inputs output relu =>
      rw [lookup?] at h
      split at h
      · cases hplan : ChannelConcat.plan compiler.maxBits inputs output relu with
        | error failure => exact compiler_compile_of_plan_error hplan
        | ok spec =>
            rw [hplan] at h
            cases h
      · exact compiler_compile_of_disabled ‹_›
  | compileSpec spec =>
      rw [lookup?] at h
      split at h
      · cases h
      · rw [next, compileSpec_of_disabled ‹_›]
  | prepare inputs output relu =>
      rw [lookup?] at h
      split at h
      · rename_i hready
        rw [next, compiler_prepare_of_canRun hready.1 hready.2]
        cases hplan : ChannelConcat.plan compiler.maxBits inputs output relu with
        | error failure => exact compiler_compile_of_plan_error hplan
        | ok spec =>
            rw [hplan] at h
            cases h
      · exact compiler_prepare_of_not ‹_›

/-! ## What a request can do -/

/-- What a request does to a compiler, in all ways that it can end. -/
inductive Effect (compiler : Compiler) (request : Request) : Prop
  /-- The request stops before a lookup and clears nothing. -/
  | none (hrequest : request ≠ .clear) (hlookup : compiler.lookup? request = none)
      (hnext : compiler.next request = compiler)
  /-- The request clears the cache. -/
  | cleared (hrequest : request = .clear) (hnext : compiler.next request = compiler.clear)
  /-- The lookup finds a routine. -/
  | found (spec : Spec) (handle : Handle) (hlookup : compiler.lookup? request = some spec)
      (hfind : compiler.cache.find? spec = some handle)
      (hresult : (compiler.compileSpec spec).result = .ok handle)
      (hnext : compiler.next request =
        { compiler with cache := { compiler.cache with hits := compiler.cache.hits + 1 } })
  /-- The lookup finds nothing, and no code can be generated. -/
  | failed (spec : Spec) (failure : Failure) (hlookup : compiler.lookup? request = some spec)
      (hcode : generate compiler.isa spec = .error failure)
      (hresult : (compiler.compileSpec spec).result = .error failure)
      (hnext : compiler.next request =
        { compiler with cache := { compiler.cache with misses := compiler.cache.misses + 1 } })
  /-- The lookup finds nothing, and a new routine is shared and kept. -/
  | built (routine : Routine) (hlookup : compiler.lookup? request = some routine.spec)
      (hfind : compiler.cache.find? routine.spec = Option.none)
      (hcode : generate compiler.isa routine.spec = .ok routine.code)
      (hresult : (compiler.compileSpec routine.spec).result =
        .ok ⟨compiler.cache.nextSerial, routine⟩)
      (hnext : compiler.next request =
        { compiler with
          cache := (Cache.put { compiler.cache with misses := compiler.cache.misses + 1 }
            routine).2 })

/-- Every request ends in one of these ways. -/
theorem effect (compiler : Compiler) (request : Request) : Effect compiler request := by
  cases hlookup : compiler.lookup? request with
  | none =>
      by_cases hclear : request = .clear
      · exact .cleared hclear (by rw [hclear, next])
      · exact .none hclear hlookup (next_of_lookup?_eq_none hlookup hclear)
  | some spec =>
      have hgenerate := generate_of_lookup? hlookup
      have hnext := next_of_lookup? hlookup
      cases hfind : compiler.cache.find? spec with
      | some handle =>
          have hresponse := compileSpec_of_hit hgenerate hfind
          exact .found spec handle hlookup hfind (by rw [hresponse])
            (by rw [hnext, hresponse])
      | none =>
          cases hcode : generate compiler.isa spec with
          | error failure =>
              have hresponse := compileSpec_of_error hgenerate hfind hcode
              exact .failed spec failure hlookup hcode (by rw [hresponse])
                (by rw [hnext, hresponse])
          | ok code =>
              have hresponse := compileSpec_of_miss hgenerate hfind hcode
              exact .built ⟨spec, code, ne_nil_of_generate hcode⟩ hlookup hfind hcode
                (by rw [hresponse]; rfl) (by rw [hnext, hresponse])

/-- A request that fails after the lookup leaves one more miss, and nothing else changes. -/
theorem next_of_compileSpec_error {failure : Failure}
    (hlookup : compiler.lookup? request = some spec)
    (hfailure : (compiler.compileSpec spec).result = .error failure) :
    compiler.next request =
      { compiler with cache := { compiler.cache with misses := compiler.cache.misses + 1 } } := by
  cases compiler.effect request with
  | none hrequest hnone hnext => cases hlookup.symm.trans hnone
  | cleared hrequest hnext =>
      rw [hrequest] at hlookup
      cases hlookup
  | found other handle hother hfind hresult hnext =>
      cases hlookup.symm.trans hother
      cases hfailure.symm.trans hresult
  | failed other found hother hcode hresult hnext => exact hnext
  | built routine hother hfind hcode hresult hnext =>
      cases hlookup.symm.trans hother
      cases hfailure.symm.trans hresult

/-- No request changes the level that a compiler generates code for, or its options. -/
theorem settings_next (compiler : Compiler) (request : Request) :
    (compiler.next request).isa = compiler.isa ∧
      (compiler.next request).options = compiler.options := by
  cases compiler.effect request with
  | none hrequest hlookup hnext => exact ⟨by rw [hnext], by rw [hnext]⟩
  | cleared hrequest hnext => exact ⟨by rw [hnext]; rfl, by rw [hnext]; rfl⟩
  | found spec handle hlookup hfind hresult hnext => exact ⟨by rw [hnext], by rw [hnext]⟩
  | failed spec failure hlookup hcode hresult hnext => exact ⟨by rw [hnext], by rw [hnext]⟩
  | built routine hlookup hfind hcode hresult hnext => exact ⟨by rw [hnext], by rw [hnext]⟩

/-- No session changes the level that a compiler generates code for, or its options. -/
theorem settings_after (compiler : Compiler) (requests : List Request) :
    (compiler.after requests).isa = compiler.isa ∧
      (compiler.after requests).options = compiler.options :=
  after_of_next (p := fun later => later.isa = compiler.isa ∧ later.options = compiler.options)
    ⟨rfl, rfl⟩ fun earlier hearlier request _ =>
      have hnext := settings_next earlier request
      ⟨hnext.1.trans hearlier.1, hnext.2.trans hearlier.2⟩

/-! ## Routines that are handed out -/

/-- Only a compiler that may generate code gives a routine for a specification. -/
theorem generate_of_compileSpec (h : (compiler.compileSpec spec).result = .ok handle) :
    compiler.options.generate = true := by
  by_contra hgenerate
  rw [compileSpec_of_disabled hgenerate] at h
  cases h

/-- A concatenation that is compiled has a plan, and its routine is that of the plan. -/
theorem exists_plan_of_compile (h : (compiler.compile inputs output relu).result = .ok handle) :
    ∃ spec, ChannelConcat.plan compiler.maxBits inputs output relu = .ok spec ∧
      (compiler.compileSpec spec).result = .ok handle := by
  cases hplan : ChannelConcat.plan compiler.maxBits inputs output relu with
  | error failure =>
      rw [result_compile_of_plan_error hplan] at h
      cases h
  | ok spec => exact ⟨spec, rfl, (result_compile_of_plan hplan).symm.trans h⟩

/-- A generated kernel is picked where generated code can run, with the routine that is compiled. -/
theorem compile_of_chooseKernel {counts : List (BitVec 32)}
    (h : (Concat.chooseKernel compiler inputs output relu).result =
      .ok (.generated handle counts)) :
    compiler.canRun = true ∧ (compiler.compile inputs output relu).result = .ok handle := by
  by_cases hcan : compiler.canRun = true
  · simp only [Concat.chooseKernel, if_pos hcan] at h
    split at h
    · rename_i compiled hresult
      cases hcounts : inputs.mapM (Concat.blockCount compiled.routine.spec) with
      | error failure =>
          rw [hcounts] at h
          cases h
      | ok known =>
          rw [hcounts] at h
          cases h
          exact ⟨hcan, hresult⟩
    · split at h <;> cases h
    · cases h
  · rw [Concat.chooseKernel, if_neg hcan] at h
    cases h

/-- A concatenation that is prepared with a routine has shapes without a defect, generated code can
run, and the routine is the one that is compiled. -/
theorem compile_of_prepare {concat : Concat}
    (h : (Concat.prepare compiler inputs output relu).result = .ok concat)
    (hhandle : concat.handle? = some handle) :
    Shape.defect inputs output = none ∧ compiler.canRun = true ∧
      (compiler.compile inputs output relu).result = .ok handle := by
  obtain ⟨hdefect, hkernel, -⟩ := Concat.kernel_of_prepare h
  cases hpicked : concat.kernel with
  | scalar =>
      rw [Concat.handle?, hpicked] at hhandle
      cases hhandle
  | generated found counts =>
      rw [Concat.handle?, hpicked] at hhandle
      cases hhandle
      exact ⟨hdefect, compile_of_chooseKernel (hpicked ▸ hkernel)⟩

/-- A routine is handed out by a lookup: it is what compiling the specification that is looked up
gives. -/
theorem exists_lookup?_of_handed? (h : compiler.handed? request = some handle) :
    ∃ spec, compiler.lookup? request = some spec ∧
      (compiler.compileSpec spec).result = .ok handle := by
  cases request with
  | plan inputs output relu => cases h
  | clear => cases h
  | compile inputs output relu =>
      obtain ⟨spec, hplan, hresult⟩ := exists_plan_of_compile (ok_of_toOption h)
      refine ⟨spec, ?_, hresult⟩
      rw [lookup?, if_pos (generate_of_compileSpec hresult), hplan]
      rfl
  | compileSpec spec =>
      have hresult : (compiler.compileSpec spec).result = .ok handle := ok_of_toOption h
      refine ⟨spec, ?_, hresult⟩
      rw [lookup?, if_pos (generate_of_compileSpec hresult)]
  | prepare inputs output relu =>
      obtain ⟨concat, hconcat, hhandle⟩ := Option.bind_eq_some_iff.1 h
      obtain ⟨hdefect, hcan, hcompile⟩ :=
        compile_of_prepare (ok_of_toOption hconcat) hhandle
      obtain ⟨spec, hplan, hresult⟩ := exists_plan_of_compile hcompile
      refine ⟨spec, ?_, hresult⟩
      rw [lookup?, if_pos ⟨hdefect, hcan⟩, hplan]
      rfl

/-- The two ways in which a routine is handed out. -/
inductive HandsOut (compiler : Compiler) (request : Request) (handle : Handle) : Prop
  /-- The routine was kept for the specification that is looked up. -/
  | found (hlookup : compiler.lookup? request = some handle.routine.spec)
      (hfind : compiler.cache.find? handle.routine.spec = some handle)
      (hnext : compiler.next request =
        { compiler with cache := { compiler.cache with hits := compiler.cache.hits + 1 } })
  /-- Nothing was kept for it, and the routine is new. -/
  | built (hlookup : compiler.lookup? request = some handle.routine.spec)
      (hfind : compiler.cache.find? handle.routine.spec = none)
      (hcode : generate compiler.isa handle.routine.spec = .ok handle.routine.code)
      (hserial : handle.serial = compiler.cache.nextSerial)
      (hnext : compiler.next request =
        { compiler with
          cache := (Cache.put { compiler.cache with misses := compiler.cache.misses + 1 }
            handle.routine).2 })

/-- A routine that is handed out was kept or is new. -/
theorem handsOut_of_handed? (h : compiler.handed? request = some handle) :
    compiler.HandsOut request handle := by
  obtain ⟨spec, hspec, hhandle⟩ := exists_lookup?_of_handed? h
  cases compiler.effect request with
  | none hrequest hlookup hnext => cases hspec.symm.trans hlookup
  | cleared hrequest hnext =>
      rw [hrequest] at hspec
      cases hspec
  | found other found hlookup hfind hresult hnext =>
      cases hspec.symm.trans hlookup
      cases hhandle.symm.trans hresult
      obtain ⟨-, rfl⟩ := Cache.of_find?_eq_some hfind
      exact .found hlookup hfind hnext
  | failed other failure hlookup hcode hresult hnext =>
      cases hspec.symm.trans hlookup
      cases hhandle.symm.trans hresult
  | built routine hlookup hfind hcode hresult hnext =>
      cases hspec.symm.trans hlookup
      cases hhandle.symm.trans hresult
      exact .built hlookup hfind hcode rfl hnext

/-- A routine that is handed out is one of the specification that the request looks up. -/
theorem lookup?_of_handed? (h : compiler.handed? request = some handle) :
    compiler.lookup? request = some handle.routine.spec := by
  cases handsOut_of_handed? h with
  | found hlookup hfind hnext => exact hlookup
  | built hlookup hfind hcode hserial hnext => exact hlookup

end Compiler

end ChannelConcat
