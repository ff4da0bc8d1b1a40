import BraceTemplate.Decimal.Reading
import BraceTemplate.Decimal.Shortest

/-!
# Numbers of the template data

A number is an integer or a finite binary floating-point number. The two are told apart in writing:
a floating-point number always shows a fraction or an exponent.
-/

namespace BraceTemplate

/-- A number as data holds it. -/
inductive Number where
  | integer (value : Int)
  | binary (value : Binary64)
  deriving DecidableEq, Repr

namespace Number

/-- Whether an integer fits 64 bits, signed or unsigned. -/
def fits (i : Int) : Bool :=
  -Int.pow 2 63 ≤ i && i < Int.pow 2 64

/-- The number that a literal denotes: an integer if it is written as one that fits, the nearest
floating-point number if it is finite. -/
def ofLiteral? (text : String) : Option Number :=
  match (Decimal.int? text.toList).filter fits with
  | some i => some (.integer i)
  | none =>
    match Decimal.floating? text with
    | some (.finite value) => some (.binary value)
    | _ => none

/-! ### Writing -/

/-- The exponents, counted from in front of the first digit, that are written without one: from
`0.00001` up to sixteen digits before the point. -/
def isPositional (point : Int) : Bool :=
  -5 < point && point ≤ 16

/-- A decimal without an exponent. It shows at least one digit on either side of the point. -/
def positional (digits : List Char) (point : Int) : List Char :=
  let zeros (n : Int) := List.replicate n.toNat '0'
  if point ≤ 0 then ['0', '.'] ++ zeros (-point) ++ digits
  else if point < digits.length then
    digits.take point.toNat ++ ['.'] ++ digits.drop point.toNat
  else digits ++ zeros (point - digits.length) ++ ['.', '0']

/-- A decimal with an exponent, which always has its sign. A single digit stands alone. -/
def scientific (digits : List Char) (point : Int) : List Char :=
  let exponent := point - 1
  let mantissa := match digits with
    | first :: second :: more => first :: '.' :: second :: more
    | _ => digits
  mantissa ++ ['e', if exponent < 0 then '-' else '+'] ++ Nat.toDigits 10 exponent.natAbs

/-- The text of a floating-point number. -/
def binaryText (value : Binary64) : List Char :=
  let magnitude :=
    if value.significand = 0 then ['0', '.', '0']
    else
      let shortest := Decimal.shortest value.significand value.exponent
      let digits := Nat.toDigits 10 shortest.digits
      let point := digits.length + shortest.exponent
      if isPositional point then positional digits point else scientific digits point
  if value.negative then '-' :: magnitude else magnitude

/-- The text of a number. -/
def text : Number → String
  | .integer value => toString value
  | .binary value => String.ofList (binaryText value)

end Number

end BraceTemplate
