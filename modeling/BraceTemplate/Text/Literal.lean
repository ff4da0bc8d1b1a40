/-!
# String literals of data text

Between double quotes, a quote and a backslash get a backslash in front, the control characters
with a short form take it, and all other characters below the space are written by their number.
Every other character stands for itself.
-/

namespace BraceTemplate.Literal

/-- A hexadecimal digit. -/
def hexDigit (n : Nat) : Char :=
  (['0', '1', '2', '3', '4', '5', '6', '7', '8', '9', 'a', 'b', 'c', 'd', 'e', 'f'][n]?).getD '0'

/-- How one character is written. -/
def char (c : Char) : List Char :=
  match c with
  | '"' => ['\\', '"']
  | '\\' => ['\\', '\\']
  | '\x08' => ['\\', 'b']
  | '\x0c' => ['\\', 'f']
  | '\n' => ['\\', 'n']
  | '\r' => ['\\', 'r']
  | '\t' => ['\\', 't']
  | c =>
    if c.toNat < 0x20 then ['\\', 'u', '0', '0', hexDigit (c.toNat / 16), hexDigit (c.toNat % 16)]
    else [c]

/-- A text as a literal, quotes included. -/
def encode (s : String) : String :=
  "\"" ++ String.ofList (s.toList.flatMap char) ++ "\""

end BraceTemplate.Literal
