import BraceTemplate.Access.Basic

/-!
# Programs

A template compiles to a program: a sequence of ops, each of which adds to the output. A leaf op
stands alone; a region op has a program as its body and decides where, whether, how often or through
which filter the body runs. The paths in ops are relative to the ambient path, which is where the
regions around an op have led.

Programs put together with the functions of this module are compact: they hold no empty text, and
no two text ops stand next to each other.
-/

namespace BraceTemplate

/-- What a helper sees of a rendering at the point where it is called. -/
structure Ambient where
  data : Value
  /-- The value at the ambient path, null included. -/
  current : Option Value
  path : String
  access : DataAccess

namespace Ambient

/-- The value at a path relative to the ambient path. -/
def resolve (ambient : Ambient) (path : String) : Option Value :=
  ambient.current.bind (ambient.access.resolve · path)

def text (ambient : Ambient) (value : Value) : String :=
  ambient.access.text value

end Ambient

/-- An op without a body. -/
inductive Leaf where
  | text (text : String)
  /-- Adds the text of the value at a path, and nothing if it is absent. -/
  | value (path : String)
  /-- Adds the ambient path followed by a path. -/
  | path (path : String)
  | call (name : String) (helper : Ambient → String)

/-- An op with a body, the body left out. -/
inductive Region where
  /-- Runs the body with a path added to the ambient path. -/
  | scope (path : String)
  /-- Runs the body if the value at a path is not absent. -/
  | has (path : String)
  /-- Runs the body for each entry of the value at a path, whose key is added to the path. -/
  | each (path : String)
  /-- Adds the output of the body after a filter has changed it. -/
  | filter (name : String) (change : String → String)

/-- A sequence of ops. -/
inductive Program where
  | empty
  | leaf (op : Leaf) (rest : Program)
  | region (op : Region) (body rest : Program)

inductive Op where
  | leaf (op : Leaf)
  | region (op : Region) (body : Program)

namespace Op

abbrev text (text : String) : Op := .leaf (.text text)

abbrev value (path : String) : Op := .leaf (.value path)

abbrev path (path : String) : Op := .leaf (.path path)

abbrev call (name : String) (helper : Ambient → String) : Op := .leaf (.call name helper)

abbrev scope (path : String) (body : Program) : Op := .region (.scope path) body

abbrev has (path : String) (body : Program) : Op := .region (.has path) body

abbrev each (path : String) (body : Program) : Op := .region (.each path) body

abbrev filter (name : String) (change : String → String) (body : Program) : Op :=
  .region (.filter name change) body

end Op

namespace Program

/-! ### Putting programs together -/

/-- Puts text in front. Empty text is dropped, and text in front of text becomes one op. -/
def consText (text : String) : Program → Program
  | .leaf (.text next) rest => if text = "" then .leaf (.text next) rest
      else .leaf (.text (text ++ next)) rest
  | rest => if text = "" then rest else .leaf (.text text) rest

def cons : Op → Program → Program
  | .leaf (.text text), rest => consText text rest
  | .leaf op, rest => .leaf op rest
  | .region op body, rest => .region op body rest

def single (op : Op) : Program :=
  cons op .empty

def append : Program → Program → Program
  | .empty, after => after
  | .leaf op rest, after => cons (.leaf op) (rest.append after)
  | .region op body rest, after => .region op body (rest.append after)

instance : Append Program := ⟨append⟩

def push (program : Program) (op : Op) : Program :=
  program ++ single op

def ofOps (ops : List Op) : Program :=
  ops.foldr cons .empty

def times (program : Program) : Nat → Program
  | 0 => .empty
  | n + 1 => program ++ program.times n

/-! ### Looking at programs -/

def ops : Program → List Op
  | .empty => []
  | .leaf op rest => .leaf op :: rest.ops
  | .region op body rest => .region op body :: rest.ops

def isEmpty : Program → Bool
  | .empty => true
  | _ => false

/-- How many ops there are, those of bodies included. -/
def opCount : Program → Nat
  | .empty => 0
  | .leaf _ rest => 1 + rest.opCount
  | .region _ body rest => 1 + body.opCount + rest.opCount

end Program

end BraceTemplate
