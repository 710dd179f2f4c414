import ChannelConcat.Cache
import ChannelConcat.Event

/-!
# The compiler

A compiler plans concatenations for one level of instructions, generates routines for its plans and
keeps them in a cache. Each request gives a response: the result, the compiler afterwards and the
events on the way. A request that fails may have changed the compiler all the same: a lookup that
found nothing stays counted. Main definitions: `Compiler.plan`, `Compiler.compileSpec`,
`Compiler.compile`.
-/

namespace ChannelConcat

/-- A compiler of concatenations. -/
structure Compiler where
  /-- The level that the processor underneath offers. -/
  host : Isa
  /-- The level that code is generated for. -/
  isa : Isa
  options : Options := {}
  cache : Cache := {}

/-- The response of a compiler to a request. -/
structure Response (α : Type) where
  result : Except Failure α
  compiler : Compiler
  events : List Event

namespace Response

/-- Go on with another request if this one succeeded. -/
def andThen {α β : Type} (response : Response α) (next : Compiler → α → Response β) : Response β :=
  match response.result with
  | .error failure => ⟨.error failure, response.compiler, response.events⟩
  | .ok value =>
      let following := next response.compiler value
      ⟨following.result, following.compiler, response.events ++ following.events⟩

end Response

namespace Compiler

/-- The widest vector in bits that the compiler may use: neither wider than its level offers nor
than its options allow. -/
def maxBits (compiler : Compiler) : Nat :=
  min compiler.isa.vectorBits compiler.options.maxBits

/-- Generated code can run: it is not switched off, it uses vectors, and the processor underneath
offers what it uses. -/
def canRun (compiler : Compiler) : Bool :=
  compiler.options.generate && compiler.isa.hasVectors && compiler.isa ≤ compiler.host

/-- Plan a concatenation within the vectors that the compiler may use. -/
def plan (compiler : Compiler) (inputs : List Tensor) (output : Tensor) (relu : Bool) :
    Response Spec :=
  match ChannelConcat.plan compiler.maxBits inputs output relu with
  | .ok spec => ⟨.ok spec, compiler, [.planned spec]⟩
  | .error failure => ⟨.error failure, compiler, []⟩

/-- Generate a routine and keep it in the cache. -/
def build (compiler : Compiler) (spec : Spec) : Response Handle :=
  match generate compiler.isa spec with
  | .error failure => ⟨.error failure, compiler, []⟩
  | .ok code =>
      match Routine.ofCode code spec with
      | .error failure => ⟨.error failure, compiler, Event.ofCode spec code⟩
      | .ok routine =>
          let (handle, cache) := compiler.cache.put routine
          ⟨.ok handle, { compiler with cache }, Event.ofCode spec code⟩

/-- The routine for a specification: the one in the cache, or else a new one. -/
def compileSpec (compiler : Compiler) (spec : Spec) : Response Handle :=
  if compiler.options.generate then
    match compiler.cache.get spec with
    | (some handle, cache) => ⟨.ok handle, { compiler with cache }, [.found spec]⟩
    | (none, cache) => build { compiler with cache } spec
  else ⟨refuse (.unsupported .disabled), compiler, []⟩

/-- Plan a concatenation and give the routine for its plan. -/
def compile (compiler : Compiler) (inputs : List Tensor) (output : Tensor) (relu : Bool) :
    Response Handle :=
  (compiler.plan inputs output relu).andThen compileSpec

/-- The compiler with an empty cache. -/
def clear (compiler : Compiler) : Compiler :=
  { compiler with cache := compiler.cache.clear }

end Compiler

end ChannelConcat
