/-!
# Doubles

Finite binary64 numbers as a sign, a mantissa and an exponent, the nearest double of a ratio, and the
double that a decimal numeral stands for.
-/
namespace JobLedger.Decimal

/-- A finite binary64 number of magnitude `mantissa * 2 ^ exponent`. In normal form the mantissa lies
below 2^53, and reaches 2^52 unless the exponent is the least one, -1074. -/
structure Double where
  negative : Bool
  mantissa : Nat
  exponent : Int
deriving DecidableEq, Repr

namespace Double

def minExponent : Int := -1074

def maxExponent : Int := 971

def zero (negative : Bool) : Double := ⟨negative, 0, minExponent⟩

/-- The quotient rounded to the nearest whole number, a half to the even neighbour. -/
def roundDiv (num den : Nat) : Nat :=
  let q := num / den
  let r := num % den
  if 2 * r < den then q else if den < 2 * r then q + 1 else q + q % 2

/-- Numerator and denominator of `num / den / 2 ^ e`. -/
def scaled (num den : Nat) (e : Int) : Nat × Nat :=
  if 0 ≤ e then (num, den * Nat.pow 2 e.toNat) else (num * Nat.pow 2 (-e).toNat, den)

/-- The double nearest to a ratio, a tie to the even mantissa, or nothing when the ratio lies past the
greatest double. -/
def ofRatio? (negative : Bool) (num den : Nat) : Option Double :=
  if num = 0 then some (zero negative) else
    let guess : Int := (Nat.log2 num : Int) - Nat.log2 den - 52
    let (n, d) := scaled num den guess
    let e := max minExponent (if n / d < Nat.pow 2 52 then guess - 1 else guess)
    let (n, d) := scaled num den e
    let m := roundDiv n d
    let (m, e) := if m = Nat.pow 2 53 then (Nat.pow 2 52, e + 1) else (m, e)
    if maxExponent < e then none else some ⟨negative, m, e⟩

def ratio (x : Double) : Nat × Nat :=
  if 0 ≤ x.exponent then (x.mantissa * Nat.pow 2 x.exponent.toNat, 1)
  else (x.mantissa, Nat.pow 2 (-x.exponent).toNat)

def mul? (x y : Double) : Option Double :=
  ofRatio? x.negative (x.ratio.1 * y.ratio.1) (x.ratio.2 * y.ratio.2)

def div? (x y : Double) : Option Double :=
  ofRatio? x.negative (x.ratio.1 * y.ratio.2) (x.ratio.2 * y.ratio.1)

def powerOfTen? (k : Nat) : Option Double := ofRatio? false (Nat.pow 10 k) 1

/-- A double scaled down by a power of ten, by at most 10^308 at a time and rounded at each time. -/
def scaleDown? (x : Double) (k : Nat) : Option Double :=
  if x.mantissa = 0 then some x
  else if h : k ≤ 308 then (powerOfTen? k).bind x.div?
  else do
    let p ← powerOfTen? 308
    let y ← x.div? p
    scaleDown? y (k - 308)
termination_by k
decreasing_by omega

/-- The double of `significand * 10 ^ exponent`: the significand is rounded first, then its product
with, or quotient by, the rounded power of ten. Nothing stands for a value past the greatest double. -/
def ofDecimal? (negative : Bool) (significand : Nat) (exponent : Int) : Option Double := do
  let x ← ofRatio? negative significand 1
  if 0 ≤ exponent then
    if x.mantissa = 0 then some x
    else if 308 < exponent then none
    else (powerOfTen? exponent.toNat).bind x.mul?
  else x.scaleDown? (-exponent).toNat

end Double

end JobLedger.Decimal
