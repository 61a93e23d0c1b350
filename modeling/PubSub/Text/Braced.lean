/-!
# Text/Braced — a value shown as its name and its fields

    Name { first: 1, second: "x" }            [1, 2]

A field is its name and the text of its value.  The long form gives every field a line of its own,
indented by four blanks and closed by a comma.
-/

namespace PubSub.Text

/-- The named fields between braces, on one line. -/
def braced (name : String) (fields : List (String × String)) : String :=
  name ++ " \x7b " ++ ", ".intercalate (fields.map fun f => f.1 ++ ": " ++ f.2) ++ " \x7d"

/-- The named fields between braces, a line each. -/
def bracedLines (name : String) (fields : List (String × String)) : String :=
  name ++ " \x7b\n"
    ++ String.join (fields.map fun f => "    " ++ f.1 ++ ": " ++ f.2 ++ ",\n") ++ "\x7d"

/-- The texts between square brackets. -/
def bracketed (items : List String) : String :=
  "[" ++ ", ".intercalate items ++ "]"

/-- Two texts between parentheses. -/
def paired (a b : String) : String := "(" ++ a ++ ", " ++ b ++ ")"

end PubSub.Text
