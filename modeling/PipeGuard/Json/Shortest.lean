import PipeGuard.Json.Double

/-! The shortest decimal of a double: the fewest digits that read back as the same double when
rounded once, and of those the digits nearest to it. A number of digits gives a grid of decimals;
the first grid with a point inside the interval that rounds to the double is the one, and only the
two points next to the double need a look. -/
namespace PipeGuard

/-- The number `significand * 10 ^ exponent`. -/
structure Decimal where
  significand : Nat
  exponent : Int
  deriving DecidableEq, Repr

namespace Decimal

/-- Moves trailing zeros of the significand into the exponent. -/
def strip : Nat → Decimal → Decimal
  | 0, d => d
  | count + 1, d =>
    if d.significand % 10 = 0 then strip count ⟨d.significand / 10, d.exponent + 1⟩ else d

def digits (d : Decimal) : List Char := Nat.toDigits 10 d.significand

/-- Where the point stands, counted in digits from the left of the first one. -/
def point (d : Decimal) : Int := d.digits.length + d.exponent

end Decimal

namespace Double

/-- How often a fraction below one takes a factor of ten until it is one or more, counting from
`count` and giving up after the first number of steps. -/
def leadingZeros : Nat → Nat → Nat → Nat → Nat
  | 0, count, _, _ => count
  | steps + 1, count, num, den =>
    if den ≤ num then count else leadingZeros steps (count + 1) (num * 10) den

/-- The power of ten of the first digit of `num / den`. -/
def decimalExponent (num den : Nat) : Int :=
  if den ≤ num then (Nat.toDigits 10 (num / den)).length - 1
  else -(leadingZeros 330 0 num den : Int)

/-- The double and the ends of the interval that rounds to it, in quarters of its last place. -/
structure Span where
  low : Nat
  mid : Nat
  high : Nat
  closed : Bool

/-- Doubles below a power of two lie closer together than those above it. -/
def span (x : Double) : Span where
  low := 4 * x.mantissa - (if x.mantissa = Nat.pow 2 52 ∧ lowest < x.exponent then 1 else 2)
  mid := 4 * x.mantissa
  high := 4 * x.mantissa + 2
  closed := x.mantissa % 2 = 0

/-- The point of the grid of multiples of `10 ^ exponent` that serves for the span, if one does. -/
def onGrid? (span : Span) (num den : Nat) (exponent : Int) : Option Decimal :=
  let num := num * Nat.pow 10 (-exponent).toNat
  let den := den * Nat.pow 10 exponent.toNat
  let below := span.mid * num / den
  let fitsBelow := if span.closed then span.low * num ≤ below * den else span.low * num < below * den
  let fitsAbove := if span.closed then (below + 1) * den ≤ span.high * num
    else (below + 1) * den < span.high * num
  let gapBelow := span.mid * num - below * den
  let gapAbove := (below + 1) * den - span.mid * num
  if fitsBelow ∧ (¬fitsAbove ∨ gapBelow < gapAbove ∨ (gapBelow = gapAbove ∧ below % 2 = 0)) then
    some ⟨below, exponent⟩
  else if fitsAbove then some ⟨below + 1, exponent⟩
  else none

/-- Tries grids from `exponent` down, each ten times finer than the last. -/
def firstGrid (span : Span) (num den : Nat) : Nat → Int → Decimal
  | 0, exponent => ⟨span.mid * num * Nat.pow 10 (-exponent).toNat / (den * Nat.pow 10 exponent.toNat), exponent⟩
  | finer + 1, exponent =>
    (onGrid? span num den exponent).getD (firstGrid span num den finer (exponent - 1))

/-- The shortest decimal of a double's size; its significand does not end in zero. -/
def shortest (x : Double) : Decimal :=
  if x.mantissa = 0 then ⟨0, 0⟩
  else
    let unit := inUnits 1 1 (2 - x.exponent)
    let first := decimalExponent (4 * x.mantissa * unit.1) unit.2
    (firstGrid x.span unit.1 unit.2 17 first).strip 17

end Double

end PipeGuard
