/-!
# Written forms of structured values

How messages show values that have parts: records by name and fields, sequences in square
brackets, tuples in round ones, tables in braces.  The parts come already written.
-/

namespace Parsing.Text

/-- A record: its name and its fields, each with its name. -/
def writtenRecord (name : String) (fields : List (String × String)) : String :=
  name ++ "(" ++ String.intercalate ", " (fields.map fun (field, value) => field ++ "=" ++ value)
    ++ ")"

/-- A sequence of any length. -/
def writtenSequence (items : List String) : String :=
  "[" ++ String.intercalate ", " items ++ "]"

/-- A tuple; one of a single part keeps a comma, which tells it from a part in brackets. -/
def writtenTuple : List String → String
  | [item] => "(" ++ item ++ ",)"
  | items => "(" ++ String.intercalate ", " items ++ ")"

/-- A table from keys to values. -/
def writtenTable (entries : List (String × String)) : String :=
  "\x7b" ++ String.intercalate ", " (entries.map fun (key, value) => key ++ ": " ++ value) ++ "\x7d"

end Parsing.Text
