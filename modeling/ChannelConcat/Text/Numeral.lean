/-!
# Decimal numerals

A numeral is an optional plus sign and at least one decimal digit; leading zeros are allowed. Main
definitions: `digitsValue`, the number that a list of digits denotes, and `readNumeral?`, which
accepts a numeral whose value lies below a limit.
-/

namespace ChannelConcat.Text

/-- The number that a list of decimal digits denotes, the most significant digit first. -/
def digitsValue (digits : List Char) : Nat :=
  digits.foldl (fun value c => 10 * value + (c.toNat - '0'.toNat)) 0

/-- The digits of a numeral: what follows one optional plus sign. -/
def afterPlus : List Char → List Char
  | '+' :: digits => digits
  | digits => digits

/-- The value of a numeral below the limit; `none` for any other text. Only the ten ASCII digits
count as digits. -/
def readNumeral? (limit : Nat) (text : List Char) : Option Nat :=
  let digits := afterPlus text
  if digits ≠ [] ∧ digits.all Char.isDigit ∧ digitsValue digits < limit then
    some (digitsValue digits)
  else none

end ChannelConcat.Text
