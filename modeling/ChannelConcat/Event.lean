import ChannelConcat.Options
import ChannelConcat.Routine
import ChannelConcat.X86.Listing

/-!
# Events

What the library reports while it works. Each event has a level and a text.
-/

namespace ChannelConcat

/-- Something worth a line in the log. -/
inductive Event where
  /-- A variable was ignored. -/
  | ignored (warning : Options.Warning)
  /-- A plan was made. -/
  | planned (spec : Spec)
  /-- Code was generated. -/
  | generated (spec : Spec) (code : List Byte)
  /-- The listing of generated code. -/
  | listed (code : List Byte)
  /-- A routine was found in the cache. -/
  | found (spec : Spec)
  /-- A concatenation will run without generated code because of a refusal. -/
  | fallback (cause : Refusal)
  /-- A concatenation will run without generated code because none can run here. -/
  | unavailable (isa : Isa)
  deriving DecidableEq

/-- How much an event matters. -/
inductive Level where
  | warn
  | debug
  | trace
  deriving DecidableEq

/-- The name of a level. -/
def Level.name : Level → String
  | warn => "WARN"
  | debug => "DEBUG"
  | trace => "TRACE"

namespace Event

/-- The level of an event. -/
def level : Event → Level
  | ignored _ | fallback _ => .warn
  | planned _ | generated _ _ | found _ | unavailable _ => .debug
  | listed _ => .trace

/-- The parameters of a routine that events show. -/
def blockText (spec : Spec) : String :=
  s!"block={spec.block} bits={spec.bits}"

/-- The text of an event. -/
def text : Event → String
  | ignored warning => warning.message
  | planned spec =>
      s!"concat plan: {spec.inputs} inputs {spec.elem.name} {blockText spec} relu={spec.relu}"
  | generated spec code =>
      s!"concat codegen: {code.length} bytes for {spec.elem.name} {blockText spec} " ++
        s!"inputs={spec.inputs} relu={spec.relu}"
  | listed code => "concat kernel disassembly:\n" ++ X86.listing code
  | found spec => s!"concat cache hit: {spec.text}"
  | fallback cause => s!"concat fallback to reference path: {cause.message}"
  | unavailable isa => s!"concat JIT unavailable on {isa.profileText}, using reference path"

/-- The events when code has been generated. -/
def ofCode (spec : Spec) (code : List Byte) : List Event :=
  [generated spec code, listed code]

/-- An event as a line: its level and its text. -/
def line (event : Event) : String :=
  event.level.name ++ " " ++ event.text

end Event

end ChannelConcat
