import BraceTemplate.Access.Basic
import BraceTemplate.Text.Characters

/-!
# Ready-made access to data

Variations of the standard access, each of one of its four parts.
-/

namespace BraceTemplate.DataAccess

/-- All text of values is in upper case. -/
def loud : DataAccess :=
  { text := fun value => upperAscii value.text }

/-- Loops go from the last entry to the first. -/
def backwards : DataAccess :=
  { visit := fun value => (standard.visit value).reverse }

/-- The name `last` leads to the last item of an array. -/
def withLast : DataAccess :=
  { lookup := fun value key =>
      match value, key with
      | .array items, .name "last" => items.getLast?
      | _, _ => value.lookup key }

/-- The empty text and `false` are absent. -/
def truthy : DataAccess :=
  { resolve := fun value path =>
      (value.resolve path).filter fun found =>
        match found with
        | .string text => text != ""
        | .bool value => value
        | _ => true }

/-- An object with an entry `value` gives way to that entry, even to null. -/
def unwrapping : DataAccess :=
  { resolve := fun value path =>
      (value.resolve path).map fun found => ((found.entries.lookup "value").getD found) }

end BraceTemplate.DataAccess
