/-!
# Sets of characters

A set of characters is given by the closed ranges of its code points. Main definition: `inRanges`.
-/

namespace ChannelConcat.Text

/-- The code point of the character lies in one of the closed ranges. -/
def inRanges (ranges : List (Nat × Nat)) (c : Char) : Bool :=
  ranges.any fun r => r.1 ≤ c.toNat && c.toNat ≤ r.2

end ChannelConcat.Text
