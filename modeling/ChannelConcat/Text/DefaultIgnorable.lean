import ChannelConcat.Text.Ranges

/-!
# Ignorable characters

The characters with the Unicode property Default_Ignorable_Code_Point: fillers, joiners, selectors
and other characters that show nothing where they are not supported. Main definition:
`isDefaultIgnorable`.
-/

namespace ChannelConcat.Text

/-- The code points with the Unicode property Default_Ignorable_Code_Point in version 17 of the
standard, as closed ranges in ascending order. -/
def defaultIgnorableRanges : List (Nat × Nat) :=
  [(0x00AD, 0x00AD), (0x034F, 0x034F), (0x061C, 0x061C), (0x115F, 0x1160), (0x17B4, 0x17B5),
    (0x180B, 0x180F), (0x200B, 0x200F), (0x202A, 0x202E), (0x2060, 0x206F), (0x3164, 0x3164),
    (0xFE00, 0xFE0F), (0xFEFF, 0xFEFF), (0xFFA0, 0xFFA0), (0xFFF0, 0xFFF8), (0x1BCA0, 0x1BCA3),
    (0x1D173, 0x1D17A), (0xE0000, 0xE0FFF)]

/-- The character has the Unicode property Default_Ignorable_Code_Point. -/
def isDefaultIgnorable (c : Char) : Bool :=
  inRanges defaultIgnorableRanges c

end ChannelConcat.Text
