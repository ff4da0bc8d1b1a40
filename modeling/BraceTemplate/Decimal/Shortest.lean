import BraceTemplate.Decimal.Binary64

/-!
# The shortest decimal of a binary number

A binary number is written with the fewest decimal digits that read back to it, and among those
with the digits nearest to it. The decimals that read back are those between the midpoints to the
two neighbours of the number, the midpoints included if its significand is even. For 1, 2, … digits
the two points of the decimal grid around the number are tried; if any point of a grid reads back,
one of these two does.
-/

namespace BraceTemplate.Decimal

/-- The number `digits · 10 ^ exponent`. -/
structure Scaled where
  digits : Nat
  exponent : Int
  deriving DecidableEq, Repr

/-- The positive numbers that round to one binary number: `low`, `value` and `high` are the lower
midpoint, the number and the upper midpoint as multiples of `1 / denominator`. -/
structure Interval where
  low : Nat
  value : Nat
  high : Nat
  denominator : Nat
  closed : Bool
  deriving DecidableEq, Repr

/-- The interval of a positive number `significand · 2 ^ exponent`. Below a power of two the
neighbours are twice as close, except at the least exponent. -/
def Interval.of (significand : Nat) (exponent : Int) : Interval :=
  let below := if significand = Binary64.minNormal ∧ exponent ≠ Binary64.minExponent then 1 else 2
  let scale := (exponent - 2).toNat
  { low := (4 * significand - below) <<< scale
    value := (4 * significand) <<< scale
    high := (4 * significand + 2) <<< scale
    denominator := 1 <<< (2 - exponent).toNat
    closed := significand % 2 = 0 }

namespace Interval

/-- Whether `point / denominator` rounds to the number. -/
def contains (i : Interval) (point : Nat) : Bool :=
  if i.closed then i.low ≤ point && point ≤ i.high else i.low < point && point < i.high

/-- The exponent of the greatest power of ten that is at most the number. Scaled by 10^400, every
binary number is at least one. -/
def log10 (i : Interval) : Int :=
  (Nat.toDigits 10 (i.value * Nat.pow 10 400 / i.denominator)).length - 401

/-- The grid point nearest to the number among the two around it, if one of them rounds to the
number. A point is a multiple of `10 ^ exponent`; halfway, the even multiple is taken. -/
def onGrid (i : Interval) (exponent : Int) : Option Scaled :=
  let refined := Nat.pow 10 (-exponent).toNat
  let step := i.denominator * Nat.pow 10 exponent.toNat
  let fine : Interval :=
    { i with low := i.low * refined, value := i.value * refined, high := i.high * refined }
  let lower := fine.value / step
  let upper := lower + 1
  let nearest := roundHalfEven fine.value step
  match fine.contains (lower * step), fine.contains (upper * step) with
  | true, true => some ⟨nearest, exponent⟩
  | true, false => some ⟨lower, exponent⟩
  | false, true => some ⟨upper, exponent⟩
  | false, false => none

end Interval

/-- Moves the zeros at the end of the digits into the exponent, `limit` of them at most. -/
def Scaled.trimmed (s : Scaled) : Nat → Scaled
  | 0 => s
  | limit + 1 =>
    if s.digits % 10 = 0 then Scaled.trimmed ⟨s.digits / 10, s.exponent + 1⟩ limit else s

/-- The shortest decimal of a positive binary number. Seventeen digits are always enough. -/
def shortest (significand : Nat) (exponent : Int) : Scaled :=
  let interval := Interval.of significand exponent
  let top := interval.log10
  let found := (List.range 17).findSome? fun (places : Nat) => interval.onGrid (top - places)
  (found.getD ⟨0, 0⟩).trimmed 17

end BraceTemplate.Decimal
