import BraceTemplate.Data.Value
import BraceTemplate.Text.Characters
import BraceTemplate.Text.Literal

/-!
# The text of values

A value appears in the output as its text. A string is its own text, null has none, and the items
of an array are put next to each other with commas; an object is written as compact data text, with
everything inside it, arrays and strings too, in that form.
-/

namespace BraceTemplate.Value

mutual

/-- A value as compact data text: no spaces, keys in their order. -/
def compact : Value → String
  | .null => "null"
  | .bool value => if value then "true" else "false"
  | .number value => value.text
  | .string text => Literal.encode text
  | .array items => "[" ++ String.intercalate "," (compactEach items) ++ "]"
  | .object keys values =>
    let entry (key text : String) := Literal.encode key ++ ":" ++ text
    inBraces (String.intercalate "," (List.zipWith entry keys.names (compactEach values)))

/-- The compact data text of each value. -/
def compactEach : List Value → List String
  | [] => []
  | value :: rest => value.compact :: compactEach rest

end

mutual

/-- A value as it appears in the output. -/
def text : Value → String
  | .null => ""
  | .bool value => if value then "true" else "false"
  | .number value => value.text
  | .string text => text
  | .array items => String.intercalate "," (textEach items)
  | .object keys values => compact (.object keys values)

/-- The text of each value. -/
def textEach : List Value → List String
  | [] => []
  | value :: rest => value.text :: textEach rest

end

end BraceTemplate.Value
