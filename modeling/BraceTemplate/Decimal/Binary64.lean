/-!
# Binary floating-point numbers

A finite number of the 64-bit binary format as sign, significand and power of two. Zero has a sign
too. The significand is below 2^53; it is at least 2^52 unless the exponent is the least one.
-/

namespace BraceTemplate

/-- The number `significand · 2 ^ exponent`, negated if `negative`. -/
structure Binary64 where
  negative : Bool
  significand : Nat
  exponent : Int
  deriving DecidableEq, Repr

namespace Binary64

/-- The least exponent. -/
def minExponent : Int := -1074

/-- The greatest exponent. -/
def maxExponent : Int := 971

/-- The least significand that the format gives to an exponent above the least one. -/
def minNormal : Nat := Nat.pow 2 52

/-- Zero with a sign. -/
def zero (negative : Bool) : Binary64 := ⟨negative, 0, minExponent⟩

end Binary64

/-- What a floating-point literal can denote: a finite number, an infinity or no number. -/
inductive Floating where
  | finite (value : Binary64)
  | infinite (negative : Bool)
  | notANumber
  deriving DecidableEq, Repr

/-- A quotient of naturals rounded to the nearest natural, and halfway to the even one. -/
def roundHalfEven (numerator denominator : Nat) : Nat :=
  let quotient := numerator / denominator
  let twice := 2 * (numerator % denominator)
  if twice < denominator ∨ twice = denominator ∧ quotient % 2 = 0 then quotient else quotient + 1

end BraceTemplate
