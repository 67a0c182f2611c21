import SpotGateway.Power

/-!
# Binary floating point

Double-precision numbers as exact values: a sign, a significand of up to 53 bits and a power of two.
Every operation forms its exact result as a ratio of whole numbers and rounds once, to the nearest
number, a half going to the even significand.

* `Binary64` — a finite number;
* `Binary64.ofRatio?` — rounding of a ratio, `none` beyond the largest finite number;
* `Binary64.addMagnitudes?`, `mul?`, `div?` — arithmetic on top of it;
* `Binary64.roundWhole?` — to the nearest whole number, a half going away from zero.
-/

set_option autoImplicit false

namespace SpotGateway

/-- The number `± significand * 2 ^ exponent`. -/
structure Binary64 where
  negative : Bool
  significand : Nat
  exponent : Int
  deriving DecidableEq, Repr

namespace Binary64

/-- Significands have at most this many bits. -/
def precision : Nat := 53

/-- The exponent of the smallest positive number. -/
def minExponent : Int := -1074

/-- The exponent of the largest finite number. -/
def maxExponent : Int := 971

/-- Zero of either sign. -/
def zero (negative : Bool) : Binary64 := ⟨negative, 0, minExponent⟩

def isZero (x : Binary64) : Bool := x.significand == 0

def neg (x : Binary64) : Binary64 := { x with negative := !x.negative }

/-- Numerator of the absolute value over `denominator`. -/
def numerator (x : Binary64) : Nat := x.significand * twoPow x.exponent.toNat

/-- The power of two under `numerator`. -/
def denominator (x : Binary64) : Nat := twoPow (-x.exponent).toNat

/-- `n / d` to the nearest whole number, a half going to the even one. -/
def nearestEven (n d : Nat) : Nat :=
  let q := n / d
  let r := n % d
  if d < 2 * r ∨ (2 * r = d ∧ q % 2 = 1) then q + 1 else q

/-- The whole number of units `2 ^ e` nearest to `n / d`. -/
def unitsAt (n d : Nat) (e : Int) : Nat := nearestEven (n * twoPow (-e).toNat) (d * twoPow e.toNat)

/-- The exponent at which `n / d` has a significand of full precision, but not below the least
exponent. -/
def exponentOf (n d : Nat) : Int :=
  let guess : Int := (Nat.log2 n : Int) - Nat.log2 d - precision
  let e :=
    if n * twoPow (-guess).toNat < d * twoPow guess.toNat * twoPow precision then guess
    else guess + 1
  max e minExponent

/-- The number nearest to `± n / d`; `none` where that is beyond the largest finite one. -/
def ofRatio? (negative : Bool) (n d : Nat) : Option Binary64 :=
  if n = 0 then some (zero negative)
  else
    let e := exponentOf n d
    let m := unitsAt n d e
    let (m, e) := if m < twoPow precision then (m, e) else (m / 2, e + 1)
    if e ≤ maxExponent then some ⟨negative, m, e⟩ else none

/-- The number nearest to a whole one. -/
def ofNat? (n : Nat) : Option Binary64 := ofRatio? false n 1

def mul? (x y : Binary64) : Option Binary64 :=
  ofRatio? (x.negative != y.negative) (x.numerator * y.numerator) (x.denominator * y.denominator)

/-- The quotient by a number other than zero. -/
def div? (x y : Binary64) : Option Binary64 :=
  ofRatio? (x.negative != y.negative) (x.numerator * y.denominator) (x.denominator * y.numerator)

/-- The sum of two numbers of the same sign. -/
def addMagnitudes? (x y : Binary64) : Option Binary64 :=
  ofRatio? x.negative (x.numerator * y.denominator + y.numerator * x.denominator)
    (x.denominator * y.denominator)

/-- The nearest whole number, a half going away from zero. -/
def roundWhole? (x : Binary64) : Option Binary64 :=
  ofRatio? x.negative ((2 * x.numerator + x.denominator) / (2 * x.denominator)) 1

/-- `x` to a whole power, by repeated squaring with a rounding at every step. -/
def power? (x : Binary64) (k : Nat) : Option Binary64 := do
  go 64 x k (← ofNat? 1)
where
  /-- Multiply `acc` by `base ^ k`. -/
  go : Nat → Binary64 → Nat → Binary64 → Option Binary64
    | 0, _, _, acc => some acc
    | fuel + 1, base, k, acc => do
      let acc ← if k % 2 = 1 then acc.mul? base else some acc
      if k / 2 = 0 then some acc
      else go fuel (← base.mul? base) (k / 2) acc

end Binary64

end SpotGateway
