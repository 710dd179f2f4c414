/-!
# Instruction set levels

The vector instructions a processor offers, in ascending order. Code generated for a level runs on
every host of at least that level.
-/

namespace ChannelConcat

/-- The vector instructions that a processor offers. -/
inductive Isa where
  | scalar
  | avx2
  | avx512
  deriving DecidableEq

namespace Isa

/-- The place of a level in the order. -/
def rank : Isa → Nat
  | scalar => 0
  | avx2 => 1
  | avx512 => 2

/-- Levels are ordered by their places. -/
instance : LE Isa := ⟨fun a b => a.rank ≤ b.rank⟩

/-- The order of levels is decidable by comparing their places. -/
instance (a b : Isa) : Decidable (a ≤ b) :=
  inferInstanceAs (Decidable (a.rank ≤ b.rank))

/-- The widest vector of a level in bits. -/
def vectorBits : Isa → Nat
  | scalar => 0
  | avx2 => 256
  | avx512 => 512

/-- The level has vector instructions, so generated code can be aimed at it. -/
def hasVectors (isa : Isa) : Bool :=
  isa ≠ .scalar

/-- The name of a level in messages. -/
def name : Isa → String
  | scalar => "Scalar"
  | avx2 => "Avx2"
  | avx512 => "Avx512"

/-- A level together with its widest vector, as shown to users. -/
def profileText (isa : Isa) : String :=
  s!"{isa.name} | max {isa.vectorBits} bits"

end Isa

end ChannelConcat
