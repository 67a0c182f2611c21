import SpotGateway.Decimal.Basic
import SpotGateway.Fault

/-!
# Arithmetic of decimals

Sums, products and quotients within 96 bits and 28 digits behind the point.  A result that is too
long loses digits behind the point, the fewest that make it fit, and is rounded to the nearest
remaining digit, a half going to the even one.  A result whose whole part does not fit is a fault.

* `Decimal.halfEven` — division by a power of ten, rounded;
* `Decimal.fit` — the decimal nearest to a number of any length;
* `Decimal.add`, `Decimal.sub`, `Decimal.mul` — on top of `fit`;
* `Decimal.div` — long division in chunks of nine digits (`Decimal.Quotient`).
-/

set_option autoImplicit false

namespace SpotGateway.Decimal

/-- `n / 10 ^ k` to the nearest whole number, a half going to the even one. -/
def halfEven (n k : Nat) : Nat :=
  let q := n / tenPow k
  let r := n % tenPow k
  if tenPow k < 2 * r ∨ (2 * r = tenPow k ∧ q % 2 = 1) then q + 1 else q

/-- Whether `n / 10 ^ scale` fits after losing `k` digits. -/
def fitsAfter (n scale k : Nat) : Bool :=
  scale - k ≤ maxScale && halfEven n k < coefficientLimit

/-- The decimal nearest to `± n / 10 ^ scale` that keeps the most digits.  It keeps the sign too,
even of what becomes zero. -/
def fit (negative : Bool) (n scale : Nat) : Option Decimal :=
  match (List.range (scale + 1)).find? (fitsAfter n scale) with
  | some k =>
    signed? negative (halfEven n k) (scale - k)
  | none => none

/-- The sum at the larger of the two scales.  Adding zero changes nothing, neither the scale nor the
sign of a zero. -/
def add (a b : Decimal) : Checked Decimal :=
  if a.isZero then .ok b
  else if b.isZero then .ok a
  else
    let scale := max a.scale b.scale
    let sum := a.coefficient * tenPow (scale - a.scale) + b.coefficient * tenPow (scale - b.scale)
    Fault.decimalOverflow.orElse (fit (sum < 0) sum.natAbs scale)

def sub (a b : Decimal) : Checked Decimal := add a b.neg

/-- The product, whose scale is the sum of the scales as far as it fits.  Where it is rounded to
zero, the sign is lost if both magnitudes are within 32 bits and kept otherwise. -/
def mul (a b : Decimal) : Checked Decimal :=
  if a.isZero || b.isZero then .ok zero
  else
    let scale := a.scale + b.scale
    let product := fit (a.negative != b.negative) (a.magnitude * b.magnitude) scale
    if a.magnitude < word32 ∧ b.magnitude < word32 then
      if 47 < scale then .ok zero else Fault.decimalOverflow.orElse (product.map unsignedZero)
    else Fault.decimalOverflow.orElse product

/-- A division under way: the digits so far, what is left to divide, and the scale of the digits,
which is negative while the dividend has too few places. -/
structure Quotient where
  digits : Nat
  rest : Nat
  scale : Int
  /-- Something was left over at some point, so that zeros may have been appended. -/
  padded : Bool
  deriving DecidableEq, Repr

namespace Quotient

/-- Add one to the last digit; where that no longer fits, one digit is dropped. -/
def increment (q : Quotient) : Option Quotient :=
  if q.digits + 1 < coefficientLimit then some { q with digits := q.digits + 1 }
  else if q.scale = 0 then none
  else some { q with digits := halfEven (q.digits + 1) 1, scale := q.scale - 1 }

/-- Settle what is left over, a half going to the even digit. -/
def round (q : Quotient) (divisor : Nat) : Option Quotient :=
  if divisor < 2 * q.rest ∨ (2 * q.rest = divisor ∧ q.digits % 2 = 1) then q.increment else some q

/-- How many further digits the next step takes: at most nine, none past the scale limit, and no
more than the 96 bits hold. -/
def room (q : Quotient) : Nat :=
  let most := min 9 ((maxScale : Int) - q.scale).toNat
  ((List.range (most + 1)).reverse.find? fun s => q.digits * tenPow s < coefficientLimit).getD 0

/-- Drop the last digit of a number that outgrew the 96 bits; anything left over counts as more than
half. -/
def shorten (digits : Nat) (sticky : Bool) : Nat :=
  let q := digits / 10
  let r := digits % 10
  if 5 < r ∨ (r = 5 ∧ (sticky ∨ q % 2 = 1)) then q + 1 else q

/-- Long division, `fuel` chunks of digits at most. -/
def expand (divisor : Nat) : Nat → Quotient → Option Quotient
  | 0, _ => none
  | fuel + 1, q =>
    if q.rest = 0 then
      if 0 ≤ q.scale then some q
      else
        let s := min 9 (-q.scale).toNat
        if q.digits * tenPow s < coefficientLimit then
          expand divisor fuel { q with digits := q.digits * tenPow s, scale := q.scale + (s : Int) }
        else none
    else
      let q : Quotient := { q with padded := true }
      if q.scale = (maxScale : Int) then q.round divisor
      else
        let s : Nat := q.room
        if s < 9 ∧ q.scale + (s : Int) < 0 then none
        else if s = 0 then q.round divisor
        else
          let numerator := q.rest * tenPow s
          let digits := q.digits * tenPow s + numerator / divisor
          let rest := numerator % divisor
          let scale := q.scale + (s : Int)
          if digits < coefficientLimit then
            expand divisor fuel { q with digits := digits, rest := rest, scale := scale }
          else if scale ≤ 0 then none
          else
            some { q with digits := shorten digits (rest ≠ 0), rest := 0, scale := scale - 1 }

/-- Take `k` zeros off the end if `k` zeros are there and `2 ^ bits` divides the digits. -/
def strip (k bits : Nat) (q : Quotient) : Quotient :=
  if q.digits % twoPow bits = 0 ∧ (k : Int) ≤ q.scale ∧ q.digits % tenPow k = 0 then
    { q with digits := q.digits / tenPow k, scale := q.scale - k }
  else q

/-- Take appended zeros off: by eight as long as the low word is zero, then once each by four, two
and one.  Up to one zero of each kind may stay. -/
def tidy (q : Quotient) : Quotient :=
  ((((q.strip 8 32).strip 8 32).strip 8 32).strip 4 4 |>.strip 2 2).strip 1 1

end Quotient

/-- The quotient: exact where that ends within the scale of the dividend less that of the divisor,
otherwise to as many digits as fit, without most of the zeros at its end. -/
def div (a b : Decimal) : Checked Decimal :=
  if b.isZero then .error .divisionByZero
  else if a.isZero then .ok zero
  else
    let start : Quotient :=
      ⟨a.magnitude / b.magnitude, a.magnitude % b.magnitude, (a.scale : Int) - b.scale, false⟩
    Fault.decimalOverflow.orElse do
      let q ← start.expand b.magnitude 16
      let q := if q.padded then q.tidy else q
      let m : Int := q.digits
      make? (if a.negative != b.negative then -m else m) q.scale.toNat

/-- The greatest multiple of `step` that is not above the value; the value itself when there is no
step. -/
def roundDownTo (value step : Decimal) : Checked Decimal :=
  if step.isZero then .ok value
  else do
    let count ← value.div step
    count.floor.mul step

end SpotGateway.Decimal
