import BraceTemplate.Tree.Basic
import BraceTemplate.Fault

/-!
# From text to tree

The braces of a text pair up as in arithmetic, and there is no way to write one as plain text. A
text is read from its end: what follows a closing brace is then complete when the brace that it
belongs to comes up, and each opening brace adds one finished node to the front of a list. The
positions are counted from the start of the text beforehand.

A closing brace without a partner makes everything behind it meaningless, so it is reported before
an opening brace that is never closed. Of several such closing braces the first is reported, of
several such opening braces the last, which is the innermost.
-/

namespace BraceTemplate

namespace Scan

/-- What stands at one nesting depth to the right of the reading point, up to the brace that ends
it: the text up to the next brace, and the nodes behind that text. -/
structure Level where
  slot : List Char
  children : Children
  deriving DecidableEq, Repr

/-- A depth of which nothing is read yet. -/
def Level.empty : Level := ⟨[], .nil⟩

/-- What is known of the text to the right of the reading point. -/
structure State where
  level : Level
  /-- For each closing brace that has no partner yet, the first one first: where it stands, and
  what stands behind it at the depth outside. -/
  pending : List (Position × Level)
  /-- The last opening brace that has no partner. -/
  unclosed : Option Position
  deriving DecidableEq, Repr

def State.initial : State := ⟨.empty, [], none⟩

/-- Takes in the character to the left of the reading point. -/
def State.step (s : State) (entry : Char × Position) : State :=
  let (c, p) := entry
  if c = Brace.closing then
    { s with level := .empty, pending := (p, s.level) :: s.pending }
  else if c = Brace.opening then
    match s.pending with
    | (_, outside) :: pending =>
      { s with
        level :=
          ⟨[], .cons p (String.ofList s.level.slot) s.level.children
            (String.ofList outside.slot) outside.children⟩
        pending }
    | [] => { s with level := .empty, unclosed := s.unclosed.or (some p) }
  else
    { s with level := { s.level with slot := c :: s.level.slot } }

/-- What reading a whole text gives. -/
def read (cs : List Char) : State :=
  (placed .start cs).foldr (fun c s => s.step c) .initial

/-- The root of the tree, or the brace at fault. -/
def State.root (s : State) : Except (LoneBrace × Position) Node :=
  match s.pending, s.unclosed with
  | (p, _) :: _, _ => .error (.closing, p)
  | [], some p => .error (.opening, p)
  | [], none => .ok ⟨.start, String.ofList s.level.slot, s.level.children⟩

end Scan

namespace Node

/-- The tree of a text. The head of its root is the text in front of the first brace. -/
def ofText (text : String) (file : Option String) : Except Fault Node :=
  match (Scan.read text.toList).root with
  | .ok root => .ok root
  | .error (brace, p) => .error (.loneBrace brace ⟨file, p⟩)

/-- The tree of a whole template: its root asks for the macro that passes its text through. -/
def ofTemplate (text : String) (file : Option String) : Except Fault Node :=
  (ofText text file).map fun root => { root with head := rootLead ++ root.head }

end Node

end BraceTemplate
