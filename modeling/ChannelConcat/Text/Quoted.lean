import ChannelConcat.Text.Blank
import ChannelConcat.Text.DefaultIgnorable
import ChannelConcat.Text.GraphemeExtend
import ChannelConcat.Text.Unassigned

/-!
# Quoted text

A text between double quotes in which every character can be told apart: the quote and the
backslash are escaped, four control characters have short escapes, and any other character that
shows no mark of its own, or only one on the character before it, is written as its code point. Main
definition: `quoted`.
-/

namespace ChannelConcat.Text

/-- The code points of the Unicode general category Cf (invisible format characters), as closed
ranges in ascending order. -/
def formatRanges : List (Nat × Nat) :=
  [(0x00AD, 0x00AD), (0x0600, 0x0605), (0x061C, 0x061C), (0x06DD, 0x06DD), (0x070F, 0x070F),
    (0x0890, 0x0891), (0x08E2, 0x08E2), (0x180E, 0x180E), (0x200B, 0x200F), (0x202A, 0x202E),
    (0x2060, 0x2064), (0x2066, 0x206F), (0xFEFF, 0xFEFF), (0xFFF9, 0xFFFB), (0x110BD, 0x110BD),
    (0x110CD, 0x110CD), (0x13430, 0x1343F), (0x1BCA0, 0x1BCA3), (0x1D173, 0x1D17A),
    (0xE0001, 0xE0001), (0xE0020, 0xE007F)]

/-- The code points reserved for private use, as closed ranges in ascending order. -/
def privateRanges : List (Nat × Nat) :=
  [(0xE000, 0xF8FF), (0xF0000, 0xFFFFD), (0x100000, 0x10FFFD)]

/-- The control characters: the code points below 20h and from 7Fh to 9Fh. -/
def controlRanges : List (Nat × Nat) :=
  [(0x0000, 0x001F), (0x007F, 0x009F)]

/-- The character shows no mark of its own: it is a control or format character, reserved for
private use, not assigned at all, ignorable, or a blank other than the ordinary space. -/
def isUnmarked (c : Char) : Bool :=
  (isBlank c && c != ' ') || inRanges controlRanges c || inRanges formatRanges c ||
    inRanges privateRanges c || isUnassigned c || isDefaultIgnorable c

/-- The half-width marks of voiced sounds, which extend the character before them and yet stand in a
cell of their own. -/
def halfwidthMarkRanges : List (Nat × Nat) :=
  [(0xFF9E, 0xFF9F)]

/-- The character is a mark that is drawn on the character before it. -/
def isAttached (c : Char) : Bool :=
  extendsGrapheme c && !inRanges halfwidthMarkRanges c

/-- One character inside quotes. -/
def escaped (c : Char) : String :=
  if c = '"' then "\\\""
  else if c = '\\' then "\\\\"
  else if c = '\t' then "\\t"
  else if c = '\r' then "\\r"
  else if c = '\n' then "\\n"
  else if c = '\x00' then "\\0"
  else if isAttached c || isUnmarked c then
    "\\u\x7b" ++ String.ofList (Nat.toDigits 16 c.toNat) ++ "\x7d"
  else String.singleton c

/-- A text in double quotes, each character escaped where it would not show on its own. -/
def quoted (text : String) : String :=
  "\"" ++ String.join (text.toList.map escaped) ++ "\""

end ChannelConcat.Text
