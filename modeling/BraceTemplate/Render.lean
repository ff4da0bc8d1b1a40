import BraceTemplate.Program.Basic

/-!
# Rendering

The state of a rendering is the data and the access to it, which stay the same, and the ambient path
and the output so far, which the ops change. The path is kept as keys and not as text, so that keys
that are empty or have dots in them lead to their own entries. A region leaves the path as it found
it, and a filter works on the output of its body alone.
-/

namespace BraceTemplate

/-- The state of a rendering. -/
structure Rendering where
  data : Value
  access : DataAccess
  path : List Key
  output : String

namespace Rendering

def initial (data : Value) (access : DataAccess) : Rendering :=
  ⟨data, access, [], ""⟩

def write (r : Rendering) (text : String) : Rendering :=
  { r with output := r.output ++ text }

def descend (r : Rendering) (keys : List Key) : Rendering :=
  { r with path := r.path ++ keys }

/-- Cuts the ambient path back to a length. -/
def ascend (r : Rendering) (length : Nat) : Rendering :=
  { r with path := r.path.take length }

/-- The value at the ambient path, null included. -/
def here (r : Rendering) : Option Value :=
  walk r.access.lookup r.data r.path

/-- The value at a path relative to the ambient path. -/
def valueAt (r : Rendering) (path : String) : Option Value :=
  r.here.bind (r.access.resolve · path)

/-- The ambient path as text: a dot and the text of each key. -/
def pathText (r : Rendering) : String :=
  String.join (r.path.map fun key => "." ++ key.text)

def ambient (r : Rendering) : Ambient :=
  ⟨r.data, r.here, r.pathText, r.access⟩

/-- What a leaf op adds to the output. -/
def leafText (r : Rendering) : Leaf → String
  | .text text => text
  | .value path => ((r.valueAt path).map r.access.text).getD ""
  | .path path => r.pathText ++ path
  | .call _ helper => helper r.ambient

/-- Runs a program. -/
def run (r : Rendering) : Program → Rendering
  | .empty => r
  | .leaf op rest => (r.write (r.leafText op)).run rest
  | .region (.scope path) body rest =>
    (((r.descend (Key.ofPath path)).run body).ascend r.path.length).run rest
  | .region (.has path) body rest =>
    (if (r.valueAt path).isSome then r.run body else r).run rest
  | .region (.each path) body rest =>
    let inside := r.descend (Key.ofPath path)
    let visited := (inside.access.visit (inside.valueAt "")).foldl
      (fun (s : Rendering) key => ((s.descend [key]).run body).ascend s.path.length) inside
    (visited.ascend r.path.length).run rest
  | .region (.filter _ change) body rest =>
    let inside := { r with output := "" }.run body
    ({ inside with output := r.output }.write (change inside.output)).run rest

end Rendering

def Program.render (program : Program) (data : Value) (access : DataAccess) : String :=
  ((Rendering.initial data access).run program).output

end BraceTemplate
