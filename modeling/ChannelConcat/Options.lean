import ChannelConcat.Size
import ChannelConcat.Plan
import ChannelConcat.Text.Blank
import ChannelConcat.Text.Numeral
import ChannelConcat.Text.Quoted

/-!
# Options

Three options steer the compiler, each set by one variable of the environment. A variable that is
absent leaves its option at the default; one whose value is not understood does the same and gives
a warning. Main definitions: `Options`, `Options.read`.
-/

namespace ChannelConcat

/-- The settings of a compiler. -/
structure Options where
  /-- Routines may be generated and run. -/
  generate : Bool := true
  /-- The widest vector in bits that generated code may use. -/
  maxBits : Nat := 512
  /-- The number of positions from which work is split into parallel tasks. -/
  parallelFrom : Nat := 1024
  deriving DecidableEq

/-- A variable that sets one of the options. -/
inductive Variable where
  | generate
  | maxBits
  | parallelFrom
  deriving DecidableEq

/-- The name of a variable in the environment. -/
def Variable.key : Variable → String
  | generate => "GLLM_CONCAT_JIT"
  | maxBits => "GLLM_CONCAT_MAX_BITS"
  | parallelFrom => "GLLM_CONCAT_PAR_MIN_PIXELS"

namespace Options

/-- A variable whose value was not understood, with that value. -/
structure Warning where
  source : Variable
  value : String
  deriving DecidableEq

/-- What a warning says about acceptable values. -/
def Warning.hint (warning : Warning) : String :=
  match warning.source with
  | .maxBits => ": expected 128, 256 or 512"
  | .generate | .parallelFrom => ""

/-- The wording of a warning. -/
def Warning.message (warning : Warning) : String :=
  s!"ignoring {warning.source.key}={Text.quoted warning.value}{warning.hint}"

/-- The form of a switch value that is compared and shown: without blanks at its ends and in small
ASCII letters. -/
def switchWord (value : String) : String :=
  String.ofList ((Text.trim value.toList).map Char.toLower)

/-- The meaning of a switch value, if it has one. -/
def readSwitch? (value : String) : Option Bool :=
  if switchWord value ∈ ["0", "false", "off"] then some false
  else if switchWord value ∈ ["1", "true", "on"] then some true
  else none

/-- The size that a value denotes, if it is a numeral with blanks around it. -/
def readSize? (value : String) : Option Nat :=
  Text.readNumeral? Size.limit (Text.trim value.toList)

/-- The vector width that a value denotes, if a register has it. -/
def readWidth? (value : String) : Option Nat :=
  (readSize? value).filter fun bits => bits ∈ Plan.registerWidths

/-- Read one option: its default if the variable is absent, the value if it is understood, and the
default with a warning otherwise. -/
def readVariable {α : Type} (source : Variable) (default : α) (read? : String → Option α)
    (shown : String → String) (value : Option String) : α × List Warning :=
  match value with
  | none => (default, [])
  | some text =>
      match read? text with
      | some setting => (setting, [])
      | none => (default, [⟨source, shown text⟩])

/-- The variables in the order in which they are looked up. -/
def lookupOrder : List Variable :=
  [.generate, .maxBits, .parallelFrom]

/-- The options that a lookup of variables sets, with the warnings in the order of the variables.
The warning for the switch shows its compared form, the other two show the value as it was. -/
def read (lookup : String → Option String) : Options × List Warning :=
  let fallback : Options := {}
  let generate := readVariable .generate fallback.generate readSwitch? switchWord
    (lookup Variable.generate.key)
  let maxBits := readVariable .maxBits fallback.maxBits readWidth? id
    (lookup Variable.maxBits.key)
  let parallelFrom := readVariable .parallelFrom fallback.parallelFrom readSize? id
    (lookup Variable.parallelFrom.key)
  (⟨generate.1, maxBits.1, parallelFrom.1⟩, generate.2 ++ maxBits.2 ++ parallelFrom.2)

end Options

end ChannelConcat
