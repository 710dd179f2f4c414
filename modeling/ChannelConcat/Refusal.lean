import ChannelConcat.Isa
import ChannelConcat.Fault
import ChannelConcat.Text.Quoted

/-!
# Refusals

A refusal is the regular answer to a request that cannot be met: it names the cause, and its
wording follows from the cause alone. A failure is a refusal or a fault. Main definitions:
`Refusal`, `Refusal.message`, `Refusal.text?`, `Failure`.
-/

namespace ChannelConcat

/-- Two shapes that should agree and do not. -/
inductive ShapeClash where
  /-- The dimensions of an input that count positions differ from the output's. -/
  | spatial (input : Nat) (expected got : Dims)
  /-- The element count of an input is no size. -/
  | inputElements (input : Nat) (dims : Dims)
  /-- The element count of the output is no size. -/
  | outputElements (dims : Dims)
  /-- The channels of all inputs together are no size. -/
  | channelTotal (inputs : Nat)
  /-- The output does not have as many channels as all inputs together. -/
  | outputChannels (expected got : Nat)
  /-- The number of source buffers differs from the number of inputs. -/
  | sources (expected got : Nat)
  /-- A source buffer does not have as many elements as its input. -/
  | sourceLength (input expected got : Nat)
  /-- The destination buffer does not have as many elements as the output. -/
  | targetLength (expected got : Nat)
  /-- A clash in the words of whoever found it. -/
  | other (expected got : String)
  deriving DecidableEq

namespace ShapeClash

/-- What was expected. -/
def expected : ShapeClash → String
  | spatial input expected _ => s!"input {input} spatial dims {sizesText expected.spatial}"
  | inputElements input _ => s!"input {input} element count within usize"
  | outputElements _ => "output element count within usize"
  | channelTotal _ => "total input channels within usize"
  | outputChannels expected _ => s!"{expected} output channels"
  | sources expected _ => s!"{expected} source buffers"
  | sourceLength input expected _ => s!"input {input} of {expected} elements"
  | targetLength expected _ => s!"output of {expected} elements"
  | other expected _ => expected

/-- What was found instead. -/
def got : ShapeClash → String
  | spatial _ _ got => sizesText got.spatial
  | inputElements _ dims | outputElements dims => sizesText dims.toList
  | channelTotal inputs => s!"{inputs} inputs"
  | outputChannels _ got | sources _ got | sourceLength _ _ got | targetLength _ got =>
      toString got
  | other _ got => got

end ShapeClash

/-- A request that is well formed but outside what is offered. -/
inductive Unsupported where
  /-- The output is not channel-interleaved. -/
  | outputLayout (got : Layout)
  /-- No block of the element type fits into the widest allowed vector. -/
  | widthCap (bits : Nat) (elem : ElemType)
  /-- No code can be generated for the level. -/
  | generator (isa : Isa)
  /-- The vectors need a higher level than the one code is generated for. -/
  | level (bits : Nat) (needed target : Isa)
  /-- Code generation is switched off. -/
  | disabled
  /-- An input has more blocks than the block counter can hold. -/
  | blockCounter (channels : Nat)
  /-- A reason in the words of whoever found it. -/
  | other (text : String)
  deriving DecidableEq

/-- The wording of an unsupported request. -/
def Unsupported.message : Unsupported → String
  | outputLayout got => s!"concat output layout {got.name}, only NHWC is supported"
  | widthCap bits elem => s!"a {bits}-bit vector cap leaves no block for {elem.name}"
  | generator isa => s!"no concat codegen backend for ISA level {isa.name}"
  | level bits needed target =>
      s!"{bits}-bit concat needs {needed.name}, codegen targets {target.name}"
  | disabled => "concat JIT disabled"
  | blockCounter channels => s!"{channels} channels exceed the block counter"
  | other text => text

/-- Code that cannot be made runnable. -/
inductive BadCode where
  /-- There is no code. -/
  | empty
  /-- A branch lies too far from its label for a one-byte displacement. -/
  | branchReach
  /-- A reason in the words of whoever found it. -/
  | other (text : String)
  deriving DecidableEq

/-- The wording of bad code. -/
def BadCode.message : BadCode → String
  | empty => "empty code buffer"
  | branchReach => "a short branch does not reach its label"
  | other text => text

/-- The regular answer to a request that cannot be met. -/
inductive Refusal where
  /-- Elements of this type cannot be concatenated. -/
  | elemType (got : ElemType)
  /-- An input has another layout than the output. -/
  | layout (input : Nat) (expected got : Layout)
  /-- An input has another element type than the output. -/
  | inputElem (input : Nat) (expected got : ElemType)
  /-- None of the block sizes divides the channel count of every input. -/
  | noBlock (sizes : List Nat)
  /-- The block does not divide the channel count of an input. -/
  | indivisible (input channels block : Nat)
  /-- A vector width that no register has. -/
  | vectorWidth (bits : Nat)
  /-- More inputs than a routine can count. -/
  | inputs (count : Nat)
  /-- Buffers of another element type than planned. -/
  | bufferElem (expected got : ElemType)
  /-- Two shapes that should agree and do not. -/
  | shape (clash : ShapeClash)
  /-- Code that cannot be made runnable. -/
  | code (cause : BadCode)
  /-- A request outside what is offered. -/
  | unsupported (cause : Unsupported)
  /-- A failure of the system underneath, in its own words. -/
  | system (text : String)
  deriving DecidableEq

namespace Refusal

/-- The wording of a refusal for users. -/
def message : Refusal → String
  | elemType got =>
      s!"unsupported element type {got.name}: only 1- and 4-byte types can be concatenated"
  | layout input expected got =>
      s!"input {input} has layout {got.name}, expected {expected.name}"
  | inputElem input expected got =>
      s!"input {input} has element type {got.name}, expected {expected.name}"
  | noBlock sizes => s!"no block size in {sizesText sizes} divides every input channel count"
  | indivisible input channels block =>
      s!"input {input} has {channels} channels, not a multiple of block {block}"
  | vectorWidth bits => s!"vector width of {bits} bits is not 128, 256 or 512"
  | inputs count => s!"{count} inputs exceed the generated loop bound"
  | bufferElem expected got =>
      s!"buffer element type {got.name} does not match planned {expected.name}"
  | shape clash => s!"shape mismatch: expected {clash.expected}, got {clash.got}"
  | code cause => s!"compile error: {cause.message}"
  | unsupported cause => s!"unsupported: {cause.message}"
  | system text => s!"I/O error: {text}"

/-- The name of the kind of a refusal. -/
def kind : Refusal → String
  | elemType _ => "UnsupportedDType"
  | layout _ _ _ => "LayoutMismatch"
  | inputElem _ _ _ => "DTypeMismatch"
  | noBlock _ => "NoValidBlock"
  | indivisible _ _ _ => "ChannelsNotDivisible"
  | vectorWidth _ => "IllegalVectorWidth"
  | inputs _ => "TooManyInputs"
  | bufferElem _ _ => "ElementMismatch"
  | shape _ => "ShapeMismatch"
  | code _ => "Compile"
  | unsupported _ => "Unsupported"
  | system _ => "Io"

/-- The structured text of a refusal: its kind and its data. A failure of the system underneath has
none, since its data are not known here. -/
def text? (refusal : Refusal) : Option String :=
  match refusal with
  | elemType got => some (Text.applied refusal.kind got.name)
  | layout input expected got =>
      some (Text.record refusal.kind
        [("index", toString input), ("expected", expected.name), ("got", got.name)])
  | inputElem input expected got =>
      some (Text.record refusal.kind
        [("index", toString input), ("expected", expected.name), ("got", got.name)])
  | noBlock sizes => some (Text.record refusal.kind [("candidates", sizesText sizes)])
  | indivisible input channels block =>
      some (Text.record refusal.kind
        [("index", toString input), ("channels", toString channels), ("block", toString block)])
  | vectorWidth count | inputs count => some (Text.applied refusal.kind (toString count))
  | bufferElem expected got =>
      some (Text.record refusal.kind [("expected", expected.name), ("got", got.name)])
  | shape clash =>
      some (Text.record refusal.kind
        [("expected", Text.quoted clash.expected), ("got", Text.quoted clash.got)])
  | code cause => some (Text.applied refusal.kind (Text.quoted cause.message))
  | unsupported cause => some (Text.applied refusal.kind (Text.quoted cause.message))
  | system _ => none

end Refusal

/-- The defect of the first input that has one, for a test that is given an input and its place. -/
def firstDefect (defect : Tensor → Nat → Option Refusal) (inputs : List Tensor) : Option Refusal :=
  inputs.zipIdx.findSome? fun entry => defect entry.1 entry.2

/-- What stops an operation that gives no result. -/
inductive Failure where
  | refusal (refusal : Refusal)
  | fault (fault : Fault)
  deriving DecidableEq

/-- Stop with a refusal. -/
def refuse {α : Type} (refusal : Refusal) : Except Failure α :=
  .error (.refusal refusal)

/-- Stop with a fault. -/
def breach {α : Type} (fault : Fault) : Except Failure α :=
  .error (.fault fault)

/-- A computation that may only fault, among those that may also refuse. -/
def orFault {α : Type} (result : Except Fault α) : Except Failure α :=
  result.mapError .fault

/-- A computation that succeeds does so among those that may refuse. -/
@[simp] theorem orFault_ok {α : Type} (value : α) :
    orFault (.ok value : Except Fault α) = .ok value :=
  rfl

/-- A computation that faults does so among those that may refuse. -/
@[simp] theorem orFault_error {α : Type} (fault : Fault) :
    orFault (.error fault : Except Fault α) = breach fault :=
  rfl

end ChannelConcat
