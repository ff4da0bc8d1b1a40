import BraceTemplate.Text.Hidden

/-!
# Texts shown to a developer

A text is shown between double quotes so that no character is in doubt: double quotes and
backslashes get a backslash in front, the usual controls have their short forms, and every other
character that does not show is written by its number.
-/

namespace BraceTemplate.Shown

/-- How one character is written. -/
def char (c : Char) : List Char :=
  match c with
  | '\x00' => ['\\', '0']
  | '\t' => ['\\', 't']
  | '\r' => ['\\', 'r']
  | '\n' => ['\\', 'n']
  | '"' => ['\\', '"']
  | '\\' => ['\\', '\\']
  | c =>
    if isHidden c then
      ['\\', 'u', Brace.opening] ++ Nat.toDigits 16 c.toNat ++ [Brace.closing]
    else [c]

/-- A text as it is shown, quotes included. -/
def text (s : String) : String :=
  "\"" ++ String.ofList (s.toList.flatMap char) ++ "\""

end BraceTemplate.Shown
