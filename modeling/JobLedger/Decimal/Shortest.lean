import JobLedger.Decimal.Digits
import JobLedger.Decimal.Double
/-!
# Shortest decimal text of a double

The fewest digits that read back as the same double, the nearest of those to its value, and the text in
positional or exponent notation.
-/
namespace JobLedger.Decimal.Double

/-- Digits as one number, and the power of ten of the last digit. -/
structure Decimals where
  digits : Nat
  exponent : Int
deriving DecidableEq, Repr

def tenRatio (d : Nat) (k : Int) : Nat × Nat :=
  if 0 ≤ k then (d * Nat.pow 10 k.toNat, 1) else (d, Nat.pow 10 (-k).toNat)

/-- The numbers that round to a double, as three numerators over one denominator: the lower end, the
value and the upper end. The gap below a power of two is half as wide. -/
def interval (x : Double) : Nat × Nat × Nat × Nat :=
  let low := if x.mantissa = Nat.pow 2 52 ∧ minExponent < x.exponent then 1 else 2
  let e := x.exponent - 2
  let (scale, den) := if 0 ≤ e then (Nat.pow 2 e.toNat, 1) else (1, Nat.pow 2 (-e).toNat)
  ((4 * x.mantissa - low) * scale, 4 * x.mantissa * scale, (4 * x.mantissa + 2) * scale, den)

/-- Whether a decimal reads back as the double. The ends of the interval count if the mantissa is even. -/
def readsBack (x : Double) (c : Decimals) : Bool :=
  let (low, _, high, den) := x.interval
  let (n, d) := tenRatio c.digits c.exponent
  if x.mantissa % 2 = 0 then low * d ≤ n * den && n * den ≤ high * d
  else low * d < n * den && n * den < high * d

/-- The least power of ten above a ratio, found by steps upwards from a start. -/
def ceilingPower (num den : Nat) : Nat → Int → Int
  | 0, k => k
  | fuel + 1, k =>
    let (n, d) := tenRatio 1 k
    if num * d < n * den then k else ceilingPower num den fuel (k + 1)

def magnitude (x : Double) : Int :=
  let (num, den) := x.ratio
  let guess := ((Nat.log2 num : Int) - Nat.log2 den) * 30103 / 100000 - 1
  ceilingPower num den 8 guess

/-- The neighbours of the value on the grid of a power of ten that read back, the nearer one if both do,
the even one if they are equally near. -/
def onGrid? (x : Double) (k : Int) : Option Decimals :=
  let (num, den) := x.ratio
  let (gn, gd) := tenRatio 1 k
  let n := num * gd
  let d := den * gn
  let below : Decimals := ⟨n / d, k⟩
  let above : Decimals := ⟨n / d + 1, k⟩
  match x.readsBack below, x.readsBack above with
  | true, true =>
    let r := n % d
    if 2 * r < d then some below else if d < 2 * r then some above
    else if below.digits % 2 = 0 then some below else some above
  | true, false => some below
  | false, true => some above
  | false, false => none

/-- The first grid, from coarse to fine, with a number that reads back. -/
def firstGrid (x : Double) (top : Int) : Nat → Nat → Decimals
  | 0, n => (x.onGrid? (top - n)).getD ⟨0, 0⟩
  | fuel + 1, n => (x.onGrid? (top - n)).getD (firstGrid x top fuel (n + 1))

/-- A number without its trailing zeros, and how many there were. -/
def stripZeros (n : Nat) : Nat × Nat :=
  if _h : n = 0 then (0, 0)
  else if n % 10 = 0 then
    let (m, z) := stripZeros (n / 10)
    (m, z + 1)
  else (n, 0)
termination_by n
decreasing_by omega

/-- The fewest digits that read back as a double other than zero. -/
def shortest (x : Double) : Decimals :=
  let c := firstGrid x x.magnitude 17 1
  let (n, z) := stripZeros c.digits
  ⟨n, c.exponent + z⟩

def exponentDigits (e : Int) : List Char :=
  if e < 0 then '-' :: Decimal.digits e.natAbs else '+' :: Decimal.digits e.natAbs

/-- The text of digits and an exponent: positional with a point while the point falls within sixteen
places after or four before the first digit, else in exponent notation with one digit before the point. -/
def layout (c : Decimals) : List Char :=
  let ds := Decimal.digits c.digits
  let point := (ds.length : Int) + c.exponent
  if 0 ≤ c.exponent ∧ point ≤ 16 then ds ++ List.replicate c.exponent.toNat '0' ++ ".0".toList
  else if 0 < point ∧ point ≤ 16 then ds.take point.toNat ++ '.' :: ds.drop point.toNat
  else if -5 < point ∧ point ≤ 0 then "0.".toList ++ List.replicate (-point).toNat '0' ++ ds
  else
    let head := match ds with
      | [d] => [d]
      | d :: r => d :: '.' :: r
      | [] => []
    head ++ 'e' :: exponentDigits (point - 1)

def chars (x : Double) : List Char :=
  let body := if x.mantissa = 0 then "0.0".toList else layout x.shortest
  if x.negative then '-' :: body else body

end JobLedger.Decimal.Double
