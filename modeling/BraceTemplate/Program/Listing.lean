import BraceTemplate.Program.Basic
import BraceTemplate.Text.Characters
import BraceTemplate.Text.Escaped

/-!
# Program listings

A listing shows a program to a reader, one op on a line. A region opens a brace, its body follows
two columns further in, and the brace is closed on a line of its own. Texts and paths are quoted;
names are not.
-/

namespace BraceTemplate

/-- The word for an op in listings. -/
def Leaf.word : Leaf → String
  | .text _ => "text"
  | .value _ => "value"
  | .path _ => "path"
  | .call _ _ => "call"

/-- The word for an op in listings. -/
def Region.word : Region → String
  | .scope _ => "scope"
  | .has _ => "has"
  | .each _ => "each"
  | .filter _ _ => "filter"

/-- What follows the word: the quoted text or path, or the name. -/
def Leaf.operand : Leaf → String
  | .text s => quote s
  | .value p => quote p
  | .path p => quote p
  | .call name _ => name

/-- What follows the word: the quoted path, or the name. -/
def Region.operand : Region → String
  | .scope p => quote p
  | .has p => quote p
  | .each p => quote p
  | .filter name _ => name

/-- The word for an op in listings. -/
def Op.word : Op → String
  | .leaf op => op.word
  | .region op _ => op.word

namespace Program

/-- The lines of a listing, each of them behind an indentation. -/
def lines (indent : String) : Program → List String
  | .empty => []
  | .leaf op rest => (indent ++ op.word ++ " " ++ op.operand) :: rest.lines indent
  | .region op body rest =>
    (indent ++ op.word ++ " " ++ op.operand ++ (" " ++ String.singleton Brace.opening)) ::
      (body.lines (indent ++ "  ") ++
        (indent ++ String.singleton Brace.closing) :: rest.lines indent)

/-- The listing of a program, each line ended by a line feed. -/
def listing (program : Program) : String :=
  String.join ((program.lines "").map (· ++ "\n"))

end Program

end BraceTemplate
