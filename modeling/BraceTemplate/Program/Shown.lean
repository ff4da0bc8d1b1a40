import BraceTemplate.Program.Basic
import BraceTemplate.Text.Shown

/-!
# Programs shown to a developer

Every op is written as the value that it is, on one line. Helpers and filters are functions and
show as such.
-/

namespace BraceTemplate

/-- A value with named fields. -/
def showFields (name : String) (fields : List (String × String)) : String :=
  let shown := fields.map fun field => field.1 ++ ": " ++ field.2
  name ++ " " ++ inBraces (" " ++ String.intercalate ", " shown ++ " ")

/-- A list of values. -/
def showList (items : List String) : String :=
  "[" ++ String.intercalate ", " items ++ "]"

/-- An op without a body. -/
def Leaf.shown : Leaf → String
  | .text s => "Text(" ++ Shown.text s ++ ")"
  | .value p => "Value(" ++ Shown.text p ++ ")"
  | .path p => "Path(" ++ Shown.text p ++ ")"
  | .call name _ => showFields "Call" [("name", Shown.text name), ("helper", "Helper(..)")]

/-- An op with its body, which is shown already. -/
def Region.shown (op : Region) (body : String) : String :=
  match op with
  | .scope p => showFields "Scope" [("path", Shown.text p), ("body", body)]
  | .has p => showFields "When" [("path", Shown.text p), ("body", body)]
  | .each p => showFields "Each" [("path", Shown.text p), ("body", body)]
  | .filter name _ =>
    showFields "Filter" [("name", Shown.text name), ("filter", "Filter(..)"), ("body", body)]

namespace Program

/-- A program whose ops are shown already. -/
def showOps (ops : List String) : String :=
  showFields "Fragment" [("ops", showList ops)]

/-- The ops of a program. -/
def shownOps : Program → List String
  | .empty => []
  | .leaf op rest => op.shown :: rest.shownOps
  | .region op body rest => op.shown (showOps body.shownOps) :: rest.shownOps

end Program

/-- A single op. -/
def Op.shown : Op → String
  | .leaf op => op.shown
  | .region op body => op.shown (Program.showOps body.shownOps)

end BraceTemplate
