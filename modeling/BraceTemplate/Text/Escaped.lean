/-!
# Text inside a quoted line

A text is written between quotes on one line. Quotes of either kind get a backslash in front and a
line feed becomes `\n`; every other character, a backslash among them, stands for itself.
-/

namespace BraceTemplate

namespace Escaped

/-- How one character is written. -/
def char : Char → List Char
  | '"' => ['\\', '"']
  | '\'' => ['\\', '\'']
  | '\n' => ['\\', 'n']
  | c => [c]

/-- How a text is written between its quotes. -/
def chars (cs : List Char) : List Char :=
  cs.flatMap char

end Escaped

/-- The written form of a text between quotes, the quotes left out. -/
def escape (s : String) : String :=
  String.ofList (Escaped.chars s.toList)

/-- A text between double quotes. -/
def quote (s : String) : String :=
  "\"" ++ escape s ++ "\""

end BraceTemplate
