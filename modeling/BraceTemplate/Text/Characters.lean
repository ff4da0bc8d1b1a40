/-!
# Kinds of characters

Braces are the only characters that a template cannot have as plain text.

White space are the characters with the Unicode property White_Space, which are more than those of
`Char.isWhitespace`: the vertical tab, the form feed, the no-break spaces, the line and paragraph
separators and the spaces of a typeset width are among them; the zero-width characters are not.
-/

namespace BraceTemplate

/-! ### Braces -/

namespace Brace

abbrev opening : Char := '\x7b'
abbrev closing : Char := '\x7d'

@[simp] theorem opening_ne_closing : opening ≠ closing := by
  decide

end Brace

/-- A text between two braces. -/
def inBraces (text : String) : String :=
  String.singleton Brace.opening ++ text ++ String.singleton Brace.closing

/-! ### White space -/

/-- The ranges of code points with the property White_Space, ends included. -/
def blankRanges : List (Nat × Nat) :=
  [(0x0009, 0x000D), (0x0020, 0x0020), (0x0085, 0x0085), (0x00A0, 0x00A0), (0x1680, 0x1680),
   (0x2000, 0x200A), (0x2028, 0x2029), (0x202F, 0x202F), (0x205F, 0x205F), (0x3000, 0x3000)]

/-- Whether a character is white space. -/
def isBlank (c : Char) : Bool :=
  blankRanges.any fun range => range.1 ≤ c.toNat && c.toNat ≤ range.2

/-! ### Letters -/

/-- A text with its ASCII letters in upper case. No other letter changes, so that the length of a
text stays the same in every language. -/
def upperAscii (s : String) : String :=
  String.ofList (s.toList.map Char.toUpper)

end BraceTemplate
