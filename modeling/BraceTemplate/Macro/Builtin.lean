import BraceTemplate.Macro.Plan

/-!
# The built-in macros

| name   | program                                                  |
|--------|----------------------------------------------------------|
| `out`  | the text and the nodes of the node                       |
| `.`    | the value at a path, then text and nodes                 |
| `->`   | text and nodes below a path                              |
| `has`  | text and nodes if there is a value at a path             |
| `each` | text and nodes for each entry of the value at a path     |
| `path` | the ambient path with a path behind, then text and nodes |

All but `out` take their path from the head.
-/

namespace BraceTemplate

/-- The built-in macros. -/
inductive Builtin where
  | out
  | value
  | scope
  | has
  | each
  | path
  deriving DecidableEq, Repr

namespace Builtin

/-- All built-in macros. -/
def all : List Builtin :=
  [.out, .value, .scope, .has, .each, .path]

/-- The name that templates use. -/
def name : Builtin → String
  | .out => "out"
  | .value => "."
  | .scope => "->"
  | .has => "has"
  | .each => "each"
  | .path => "path"

/-- The built-in macro of a name. -/
def ofName? (name : String) : Option Builtin :=
  all.find? (·.name == name)

theorem ofName?_name (builtin : Builtin) : ofName? builtin.name = some builtin := by
  cases builtin <;> rfl

/-- The work on a node. The path, if there is one, is taken off before the nodes inside are
expanded. -/
def plan : Builtin → Node → Plan Expansion
  | .out => Plan.expandChildren
  | .value => Plan.expandAfterPath fun path content => .cons (.value path) content
  | .scope => Plan.expandAfterPath fun path content => .single (.scope path content)
  | .has => Plan.expandAfterPath fun path content => .single (.has path content)
  | .each => Plan.expandAfterPath fun path content => .single (.each path content)
  | .path => Plan.expandAfterPath fun path content => .cons (.path path) content

/-- A built-in macro as a macro. -/
def toMacro (builtin : Builtin) : Macro :=
  ⟨fun _ => builtin.plan⟩

end Builtin

end BraceTemplate
