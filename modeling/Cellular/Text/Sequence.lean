/-!
# Bracketed sequences

The written forms of tuples, lists and tables of already written items. A tuple
of one item keeps a comma, so that it differs from a parenthesised item.
-/

namespace Cellular.Text

/-- Items between round brackets: `()`, `(a,)`, `(a, b)`. -/
def tuple : List String → String
  | [] => "()"
  | [item] => "(" ++ item ++ ",)"
  | items => "(" ++ ", ".intercalate items ++ ")"

/-- Items between square brackets: `[]`, `[a]`, `[a, b]`. -/
def bracketed (items : List String) : String :=
  "[" ++ ", ".intercalate items ++ "]"

/-- Keyed items between curly brackets. -/
def braced (entries : List (String × String)) : String :=
  "\x7b" ++ ", ".intercalate (entries.map fun entry => entry.1 ++ ": " ++ entry.2) ++ "\x7d"

/-- A truth value as a word. -/
def truth (b : Bool) : String :=
  if b then "True" else "False"

/-- The word for a value that is missing. -/
def missing : String := "None"

end Cellular.Text
