import SpotGateway.Decimal.Basic

/-!
# Reading decimals

Text of a decimal is a sign, digits with at most one point among them, and underscores anywhere
after the first digit.  Digits behind the point that do not fit are settled by the first of them, a
five rounding away from zero.  A number may also be given in scientific form.

* `Decimal.Reading` — the digits read so far;
* `Decimal.ofPlain?` — positional notation;
* `Decimal.ofScientific?` — a positional number, `e` or `E`, and a power of ten up to 28;
* `Decimal.ofText?` — either form, positional first.
-/

set_option autoImplicit false

namespace SpotGateway.Decimal

/-- The digits read so far. -/
structure Reading where
  negative : Bool
  digits : Nat
  scale : Nat
  /-- The point has been read. -/
  fractional : Bool
  /-- At least one digit has been read. -/
  started : Bool
  deriving DecidableEq, Repr

namespace Reading

/-- The decimal read, once there is a digit.  A zero has no sign. -/
def finish (r : Reading) : Option Decimal :=
  if r.started then make? (if r.negative then -(r.digits : Int) else r.digits) r.scale else none

/-- One more unit in the last place.  If that no longer fits, a place is given up. -/
def roundUp (r : Reading) : Option Decimal :=
  if r.digits + 1 < coefficientLimit then { r with digits := r.digits + 1 }.finish
  else if r.scale = 0 then none
  else { r with digits := (r.digits + 5) / 10, scale := r.scale - 1 }.finish

/-- All places are taken: the digit `d` that comes next decides how the last place is rounded, and
nothing but digits and underscores may follow it. -/
def settle (r : Reading) (d : Nat) (after : List Char) : Option Decimal :=
  if after.all fun c => c = '_' || (Text.digit? c).isSome then
    if 5 ≤ d then r.roundUp else r.finish
  else none

/-- Another digit after a number from here on may not fit in 64 bits, with some margin. -/
def wide : Nat := (word64 - 1) / 10 - 255

/-- Whether an underscore now stands for the digit zero rather than for nothing.  It does behind the
last place, as long as the digits before that place are below `wide`. -/
def closes (r : Reading) : Bool :=
  r.fractional && maxScale ≤ r.scale && r.digits / 10 < wide

/-- Read on to the end of the text. -/
def run (r : Reading) : List Char → Option Decimal
  | [] => r.finish
  | c :: cs =>
    match Text.digit? c with
    | some d =>
      let digits := r.digits * 10 + d
      if digits < coefficientLimit ∧ ¬ (r.fractional ∧ maxScale ≤ r.scale) then
        let scale := if r.fractional then r.scale + 1 else 0
        run { r with digits := digits, scale := scale, started := true } cs
      else if r.fractional then r.settle d cs
      else none
    | none =>
      if c = '.' then if r.fractional then none else run { r with fractional := true } cs
      else if c = '_' ∧ r.started then if r.closes then r.settle 0 cs else run r cs
      else none

end Reading

/-- Positional notation. -/
def ofPlain? (cs : List Char) : Option Decimal :=
  match cs with
  | '-' :: rest => Reading.run ⟨true, 0, 0, false, false⟩ rest
  | '+' :: rest => Reading.run ⟨false, 0, 0, false, false⟩ rest
  | _ => Reading.run ⟨false, 0, 0, false, false⟩ cs

/-- The nearest decimal of a smaller scale, a half going away from zero.  The sign stays. -/
def roundToScale (d : Decimal) (scale : Nat) : Option Decimal :=
  if d.scale ≤ scale then some d
  else
    let unit := tenPow (d.scale - scale)
    signed? d.negative ((2 * d.magnitude + unit) / (2 * unit)) scale

/-- `d / 10 ^ k`, rounded where the scale runs out. -/
def shiftDown (d : Decimal) (k : Nat) : Option Decimal :=
  if d.scale + k ≤ maxScale then signed? d.negative d.magnitude (d.scale + k)
  else do
    let r ← d.roundToScale (maxScale - k)
    signed? r.negative r.magnitude maxScale

/-- `d * 10 ^ k`: the scale gives way first, then the coefficient grows. -/
def shiftUp (d : Decimal) (k : Nat) : Option Decimal :=
  if k ≤ d.scale then signed? d.negative d.magnitude (d.scale - k)
  else make? (d.coefficient * tenPow (k - d.scale)) 0

/-- A positional number, `e` or `E`, and a power of ten of at most 28 in absolute value.  The power
may have a plus sign, also after the minus sign. -/
def ofScientific? (cs : List Char) : Option Decimal :=
  let isMark := fun c : Char => c = 'e' ∨ c = 'E'
  let base := cs.takeWhile fun c => !isMark c
  match cs.dropWhile fun c => !isMark c with
  | [] => none
  | _ :: power => do
    let d ← ofPlain? base
    match power with
    | '-' :: ds =>
      let k ← Text.natural? 32 ds
      if k ≤ maxScale then d.shiftDown k else none
    | ds =>
      let k ← Text.natural? 32 ds
      if k ≤ maxScale then d.shiftUp k else none

/-- Positional notation, or else scientific. -/
def ofText? (s : String) : Option Decimal :=
  ofPlain? s.toList <|> ofScientific? s.toList

end SpotGateway.Decimal
