import BraceTemplate.Decimal.Reading
import BraceTemplate.Source.Position

/-!
# Refusals

The message of a value that refuses to be converted may end in the place of the trouble, written
` at line 3 column 7`. Such a place is told apart from the reason, and is written again in plain
decimal digits. There is no line zero, so that a place in it is none.
-/

namespace BraceTemplate

/-- Why a value refuses to be converted, and where the trouble is, if that is known. -/
structure Refusal where
  reason : String
  place : Option Position
  deriving DecidableEq, Repr

namespace Refusal

/-- Takes the digits at the end of a text off it, and the words in front of them. Gives what is left
and the number that the digits write, which fits 64 bits. -/
def dropCount? (words : String) (cs : List Char) : Option (List Char × Nat) := do
  let digits := (cs.reverse.takeWhile Char.isDigit).reverse
  let count := Decimal.natOfDigits digits
  let rest ← words.toList.isSuffixOf? (cs.reverse.dropWhile Char.isDigit).reverse
  if digits.isEmpty ∨ Nat.pow 2 64 ≤ count then none else some (rest, count)

/-- The reason and the place of a text that ends in a place. -/
def splitPlace? (cs : List Char) : Option (List Char × Position) := do
  let (front, column) ← dropCount? " column " cs
  let (reason, line) ← dropCount? " at line " front
  return (reason, ⟨line, column⟩)

/-- Reads a message. -/
def ofMessage (message : String) : Refusal :=
  match splitPlace? message.toList with
  | some (reason, place) => ⟨String.ofList reason, if place.line = 0 then none else some place⟩
  | none => ⟨message, none⟩

/-- The refusal in words. -/
def message (r : Refusal) : String :=
  match r.place with
  | some place =>
    r.reason ++ " at line " ++ toString place.line ++ " column " ++ toString place.column
  | none => r.reason

end Refusal

end BraceTemplate
