/-!
# Structured values as text

The text of a structured value: a list in brackets, a record with its named fields in braces,
a constructor applied to one value in parentheses.
-/

namespace ChannelConcat.Text

/-- A list: the texts of its items in brackets, with a comma and a blank between two of them. -/
def bracketed (items : List String) : String :=
  "[" ++ ", ".intercalate items ++ "]"

/-- A record: its name, then each field as a name and a value, in braces. -/
def record (name : String) (fields : List (String × String)) : String :=
  name ++ " \x7b " ++ ", ".intercalate (fields.map fun f => f.1 ++ ": " ++ f.2) ++ " \x7d"

/-- A constructor applied to one value. -/
def applied (name value : String) : String :=
  name ++ "(" ++ value ++ ")"

end ChannelConcat.Text
