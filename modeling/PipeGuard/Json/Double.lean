/-! Numbers of double precision, in exact arithmetic. A finite double is a sign and a mantissa of at
most 53 bits times a power of two. Every operation takes the exact result as a fraction and rounds
it once, to the nearest double and to an even mantissa from half way; it gives `none` where the
result is too large. -/
namespace PipeGuard

/-- The number `mantissa * 2 ^ exponent`, or its negative. -/
structure Double where
  negative : Bool
  mantissa : Nat
  exponent : Int
  deriving DecidableEq, Repr

namespace Double

/-- The exponent of the smallest doubles. -/
def lowest : Int := -1074

/-- The greatest exponent of a finite double. -/
def highest : Int := 971

def zero (negative : Bool) : Double := ⟨negative, 0, lowest⟩

/-- The quotient rounded to the nearest number, to the even one from half way. -/
def divideRound (num den : Nat) : Nat :=
  let quotient := num / den
  let twice := 2 * (num % den)
  if twice < den then quotient
  else if den < twice then quotient + 1
  else quotient + quotient % 2

/-- The fraction `num / den` in units of `2 ^ exponent`, again as a fraction. -/
def inUnits (num den : Nat) (exponent : Int) : Nat × Nat :=
  if 0 ≤ exponent then (num, den * Nat.pow 2 exponent.toNat)
  else (num * Nat.pow 2 (-exponent).toNat, den)

/-- The exponent at which a fraction has a mantissa of 53 bits, or the lowest one. -/
def exponentFor (num den : Nat) : Int :=
  let guess : Int := (num.log2 : Int) - den.log2 - 52
  let units := inUnits num den guess
  max lowest (if Nat.pow 2 52 * units.2 ≤ units.1 then guess else guess - 1)

/-- The double nearest to a fraction. -/
def ofRatio? (negative : Bool) (num den : Nat) : Option Double :=
  if num = 0 then some (zero negative)
  else
    let exponent := exponentFor num den
    let units := inUnits num den exponent
    let mantissa := divideRound units.1 units.2
    let rounded : Double :=
      if mantissa = Nat.pow 2 53 then ⟨negative, Nat.pow 2 52, exponent + 1⟩
      else ⟨negative, mantissa, exponent⟩
    if highest < rounded.exponent then none else some rounded

/-- The double nearest to `num / den * 2 ^ exponent`. -/
def ofScaled? (negative : Bool) (num den : Nat) (exponent : Int) : Option Double :=
  if 0 ≤ exponent then ofRatio? negative (num * Nat.pow 2 exponent.toNat) den
  else ofRatio? negative num (den * Nat.pow 2 (-exponent).toNat)

def times? (x y : Double) : Option Double :=
  ofScaled? (x.negative != y.negative) (x.mantissa * y.mantissa) 1 (x.exponent + y.exponent)

/-- The quotient by a number other than zero. -/
def over? (x y : Double) : Option Double :=
  ofScaled? (x.negative != y.negative) x.mantissa y.mantissa (x.exponent - y.exponent)

/-! ### Reading decimals

A decimal is read in steps that each round: its significand first, then the product or the quotient
with a power of ten. The greatest power of ten is the 308th, so small numbers take several
quotients. -/

def greatestPower : Nat := 308

/-- The double nearest to a power of ten. -/
def power? (n : Nat) : Option Double := ofRatio? false (Nat.pow 10 n) 1

/-- Divides `count` times by the greatest power, or until nothing is left. -/
def shrink? (greatest : Double) : Nat → Double → Option Double
  | 0, x => some x
  | count + 1, x => if x.mantissa = 0 then some x else (x.over? greatest).bind (shrink? greatest count)

def shiftUp? (x : Double) (n : Nat) : Option Double :=
  if n ≤ greatestPower then (power? n).bind x.times?
  else if x.mantissa = 0 then some x
  else none

def shiftDown? (x : Double) (n : Nat) : Option Double :=
  let count := (n - 1) / greatestPower
  (power? greatestPower).bind fun greatest =>
    (shrink? greatest count x).bind fun small =>
      (power? (n - count * greatestPower)).bind small.over?

/-- The double read from `significand * 10 ^ exponent`. -/
def ofDecimal? (negative : Bool) (significand : Nat) (exponent : Int) : Option Double :=
  (ofRatio? negative significand 1).bind fun x =>
    if 0 ≤ exponent then x.shiftUp? exponent.toNat else x.shiftDown? (-exponent).toNat

end Double

end PipeGuard
