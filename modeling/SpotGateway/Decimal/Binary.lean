import SpotGateway.Binary64.Shortest
import SpotGateway.Decimal.Basic

/-!
# Decimals as floating-point numbers

Order bodies carry amounts as JSON numbers of double precision.

* `Decimal.toBinary64?` — the conversion, in the steps and with the roundings that the exchange's
  numbers are made with;
* `Decimal.numberText` — the JSON number.
-/

set_option autoImplicit false

namespace SpotGateway.Decimal

/-- A whole number is rounded once, and its zero has no sign.  Otherwise whole part and fraction are
converted apart and added, and the sum is rounded again to the places of the scale. -/
def toBinary64? (d : Decimal) : Option Binary64 := do
  let sign := fun x : Binary64 => if d.negative then x.neg else x
  if d.scale = 0 then
    let whole ← Binary64.ofNat? d.magnitude
    return if d.isZero then whole else sign whole
  let unit := tenPow d.scale
  let whole ← Binary64.ofNat? (d.magnitude / unit)
  let fraction ← (← Binary64.ofNat? (d.magnitude % unit)).div? (← Binary64.ofNat? unit)
  if fraction.isZero then
    return sign whole
  let sum ← whole.addMagnitudes? fraction
  let places ← (← Binary64.ofNat? 10).power? d.scale
  return sign (← (← (← sum.mul? places).roundWhole?).div? places)

/-- The JSON number of the double nearest to the value. -/
def numberText (d : Decimal) : String :=
  match d.toBinary64? with
  | some x => x.text .json
  | none => "null"

end SpotGateway.Decimal
