import BraceTemplate.Decimal.Binary64

/-!
# Reading decimal numbers

A decimal literal denotes the binary number nearest to it, and of two equally near ones the one
with the even significand. All arithmetic is on naturals and exact.
-/

namespace BraceTemplate.Decimal

/-! ### Rounding -/

/-- The exponent of the greatest power of two that is at most the quotient of two positive
naturals. -/
def log2Quotient (numerator denominator : Nat) : Int :=
  let estimate : Int := numerator.log2 - denominator.log2
  if denominator <<< estimate.toNat ≤ numerator <<< (-estimate).toNat then estimate
  else estimate - 1

/-- The binary number nearest to a quotient of positive naturals; infinite if it is too great. -/
def nearestQuotient (negative : Bool) (numerator denominator : Nat) : Floating :=
  let exponent := max (log2Quotient numerator denominator - 52) Binary64.minExponent
  let significand :=
    roundHalfEven (numerator <<< (-exponent).toNat) (denominator <<< exponent.toNat)
  let value : Binary64 :=
    if significand = 2 * Binary64.minNormal then ⟨negative, Binary64.minNormal, exponent + 1⟩
    else ⟨negative, significand, exponent⟩
  if value.exponent ≤ Binary64.maxExponent then .finite value else .infinite negative

/-- The binary number nearest to `digits · 10 ^ exponent`. Beyond 400 places on either side of the
decimal point every number rounds to zero or is too great. -/
def nearest (negative : Bool) (digits : Nat) (exponent : Int) : Floating :=
  let magnitude : Int := (Nat.toDigits 10 digits).length + exponent
  if digits = 0 ∨ magnitude < -400 then .finite (.zero negative)
  else if magnitude > 400 then .infinite negative
  else nearestQuotient negative (digits * Nat.pow 10 exponent.toNat) (Nat.pow 10 (-exponent).toNat)

/-! ### Literals -/

/-- The parts of a decimal literal. -/
structure Literal where
  negative : Bool
  whole : List Char
  fraction : List Char
  exponent : Int
  deriving DecidableEq, Repr

/-- The natural number that a row of decimal digits writes. -/
def natOfDigits (ds : List Char) : Nat :=
  ds.foldl (fun n d => 10 * n + (d.toNat - '0'.toNat)) 0

/-- Whether a text begins with a minus, and the text without its sign. -/
def splitSign : List Char → Bool × List Char
  | '-' :: rest => (true, rest)
  | '+' :: rest => (false, rest)
  | cs => (false, cs)

/-- The integer written as decimal digits with an optional sign. -/
def int? (cs : List Char) : Option Int :=
  let (negative, ds) := splitSign cs
  if ds.isEmpty ∨ !ds.all Char.isDigit then none
  else some (if negative then -(natOfDigits ds : Int) else natOfDigits ds)

/-- Reads an optional sign, digits, an optional fraction and an optional exponent. -/
def literal? (cs : List Char) : Option Literal :=
  let (negative, cs) := splitSign cs
  let whole := cs.takeWhile Char.isDigit
  let (fraction, tail) := match cs.dropWhile Char.isDigit with
    | '.' :: rest => (rest.takeWhile Char.isDigit, rest.dropWhile Char.isDigit)
    | rest => ([], rest)
  let exponent? := match tail with
    | [] => some 0
    | e :: rest => if e = 'e' ∨ e = 'E' then int? rest else none
  if whole.isEmpty ∧ fraction.isEmpty then none
  else exponent?.map (⟨negative, whole, fraction, ·⟩)

/-- The number nearest to what a literal denotes. -/
def Literal.value (l : Literal) : Floating :=
  nearest l.negative (natOfDigits (l.whole ++ l.fraction)) (l.exponent - l.fraction.length)

/-- Reads a floating-point literal, or one of the words for what is not finite, in letters of either
case and with an optional sign. -/
def floating? (text : String) : Option Floating :=
  let (negative, cs) := splitSign text.toList
  match String.ofList (cs.map Char.toLower) with
  | "nan" => some .notANumber
  | "inf" | "infinity" => some (.infinite negative)
  | _ => (literal? text.toList).map Literal.value

end BraceTemplate.Decimal
