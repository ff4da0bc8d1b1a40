/-!
# Places in a template

Lines and columns count from one. A column counts code points, and only a line feed starts a line.
-/

namespace BraceTemplate

structure Position where
  line : Nat
  column : Nat
  deriving DecidableEq, Repr

namespace Position

def start : Position := ⟨1, 1⟩

/-- The place of the character that follows `c`, if `c` stands at `p`. -/
def next (p : Position) (c : Char) : Position :=
  if c = '\n' then ⟨p.line + 1, 1⟩ else ⟨p.line, p.column + 1⟩

end Position

/-- Each character of a text with its place, the first one standing at `p`. -/
def placed (p : Position) : List Char → List (Char × Position)
  | [] => []
  | c :: rest => (c, p) :: placed (p.next c) rest

/-- The second part of a text stands where the first part ends. -/
theorem placed_append (p : Position) (cs ds : List Char) :
    placed p (cs ++ ds) = placed p cs ++ placed (cs.foldl Position.next p) ds := by
  induction cs generalizing p with
  | nil => rfl
  | cons c rest ih => simp [placed, ih]

/-- A place in a template that may have a file name. -/
structure Location where
  file : Option String
  position : Position
  deriving DecidableEq, Repr

namespace Location

/-- What stands for the name of a template that has none. -/
def anonymous : String := "<template>"

/-- The written form `file:line:column`. -/
def text (l : Location) : String :=
  l.file.getD anonymous ++ ":" ++ toString l.position.line ++ ":" ++ toString l.position.column

end Location

end BraceTemplate
