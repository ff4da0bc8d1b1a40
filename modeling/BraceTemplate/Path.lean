/-!
# Paths

A path names a place below the place where it is used: `.items.0.title`. It is a text of names with
dots between them, and empty names do not count, so that the empty path, and one of dots alone,
stay where they are. A template may also write an index in brackets; `normalize` turns each bracket
group into a dotted name, puts the dot in front and drops the dots at the end.
-/

namespace BraceTemplate.Path

/-! ### Names -/

/-- The pieces of a text between its dots. There is one more of them than there are dots. -/
def pieces : List Char → List (List Char)
  | [] => [[]]
  | c :: rest =>
    if c = '.' then [] :: pieces rest
    else match pieces rest with
      | [] => [[c]]
      | piece :: more => (c :: piece) :: more

/-- The names of a path: its pieces that are not empty. -/
def names (path : String) : List String :=
  ((pieces path.toList).filter (!·.isEmpty)).map String.ofList

/-! ### Normal form -/

/--
Writes each bracket group as a dot and what the brackets hold. A group runs from a `[` to the next
`]`, so a `[` inside a group belongs to its text, and a `[` that no `]` follows stays as it is. The
first argument holds the text of the open group, last character first.
-/
def dotGroups : Option (List Char) → List Char → List Char
  | none, [] => []
  | some held, [] => '[' :: held.reverse
  | none, '[' :: rest => dotGroups (some []) rest
  | none, c :: rest => c :: dotGroups none rest
  | some held, ']' :: rest => '.' :: held.reverse ++ dotGroups none rest
  | some held, c :: rest => dotGroups (some (c :: held)) rest

/-- Puts a dot in front of a text that does not start with one. -/
def leadWithDot (cs : List Char) : List Char :=
  if cs.head? = some '.' then cs else '.' :: cs

/-- Drops all dots at the end. -/
def dropEndDots (cs : List Char) : List Char :=
  (cs.reverse.dropWhile (· = '.')).reverse

/-- The path that a token of a template spells. -/
def normalize (token : String) : String :=
  String.ofList (dropEndDots (leadWithDot (dotGroups none token.toList)))

end BraceTemplate.Path
