import SpotGateway.Binary64.Shortest
import SpotGateway.Power
import SpotGateway.Text.Digits

/-!
# JSON numbers

A number in a document is kept as it is written until something asks for its value.  A value is a
whole number if it is written as one and fits 64 bits, and a floating-point number otherwise.  That
number is made from as many leading digits as fit a 64-bit word, scaled by a power of ten with one
rounding for the word and one for each factor, so that a long literal may come out next to the
nearest floating-point number.

* `Literal` — sign, digits, fraction and exponent as written;
* `Literal.natural?`, `Literal.integer?` — whole numbers of a given size;
* `Number` — the value;
* `Literal.number?` — the value of a literal, none if it is beyond the floating-point range;
* `Number.text` — how values are written.
-/

set_option autoImplicit false

namespace SpotGateway.Json

/-- A number as written. -/
structure Literal where
  negative : Bool
  /-- Digits before the point. -/
  whole : List Nat
  /-- Digits behind the point, if there is one. -/
  fraction : Option (List Nat)
  /-- Sign and digits of the power of ten, if there is one. -/
  exponent : Option (Bool × List Nat)
  deriving DecidableEq, Repr

/-- The value of a number. -/
inductive Number where
  | natural (n : Nat)
  /-- A negative whole number. -/
  | negative (i : Int)
  | float (x : Binary64)
  deriving DecidableEq, Repr

namespace Literal

/-- Written without fraction and exponent. -/
def isWhole (l : Literal) : Bool := l.fraction.isNone && l.exponent.isNone

/-- A whole number below `limit`; a minus sign rules it out, even before zero. -/
def natural? (limit : Nat) (l : Literal) : Option Nat :=
  let n := Text.valueOf l.whole
  if l.isWhole ∧ l.negative = false ∧ n < limit ∧ n < word64 then some n else none

/-- A whole number of 64 bits with sign; negative zero is not one. -/
def integer? (l : Literal) : Option Int :=
  let n := Text.valueOf l.whole
  if l.isWhole then
    if l.negative then (if 0 < n ∧ n ≤ word63 then some (-(n : Int)) else none)
    else if n < word63 then some n else none
  else none

/-- Take digits into a word as long as they fit: the word and how many digits were taken. -/
def fill : Nat → List Nat → Nat × Nat
  | word, [] => (word, 0)
  | word, d :: ds =>
    if word * 10 + d < word64 then
      let (w, n) := fill (word * 10 + d) ds
      (w, n + 1)
    else (word, 0)

/-- The leading digits as a word and the power of ten that belongs to them. -/
def scaled (l : Literal) : Nat × Int :=
  let (w, taken) := fill 0 l.whole
  let missing := l.whole.length - taken
  let (word, places) := match l.fraction with
    | some ds => fill w ds
    | none => (w, 0)
  (word, (missing : Int) - places)

/-- The power of ten as written. -/
def power (l : Literal) : Int :=
  match l.exponent with
  | some (true, ds) => -(Text.valueOf ds : Int)
  | some (false, ds) => Text.valueOf ds
  | none => 0

/-- `x * 10 ^ e`, rounding after every factor; none beyond the floating-point range.  A negative
power is taken in steps of at most `10 ^ 308`. -/
def scale : Nat → Binary64 → Int → Option Binary64
  | 0, x, _ => some x
  | fuel + 1, x, e =>
    if e.natAbs ≤ 308 then do
      let factor ← Binary64.ofNat? (tenPow e.natAbs)
      if 0 ≤ e then x.mul? factor else x.div? factor
    else if x.isZero then some x
    else if 0 ≤ e then none
    else do
      let factor ← Binary64.ofNat? (tenPow 308)
      scale fuel (← x.div? factor) (e + 308)

/-- The floating-point value. -/
def float? (l : Literal) : Option Binary64 := do
  let (word, places) := l.scaled
  let x ← scale 4 (← Binary64.ofNat? word) (places + l.power)
  return if l.negative then x.neg else x

/-- The value; none if it is beyond the floating-point range. -/
def number? (l : Literal) : Option Number :=
  let n := Text.valueOf l.whole
  if l.isWhole ∧ l.negative = false ∧ n < word64 then some (.natural n)
  else if l.isWhole ∧ l.negative ∧ 0 < n ∧ n ≤ word63 then some (.negative (-(n : Int)))
  else l.float?.map .float

end Literal

namespace Number

def text : Number → String
  | .natural n => Text.decimal n
  | .negative i => Text.signed i
  | .float x => x.text .json

/-- A whole number that fits an unsigned 64-bit word. -/
def natural? : Number → Option Nat
  | .natural n => some n
  | _ => none

/-- A whole number that fits a signed 64-bit word. -/
def integer? : Number → Option Int
  | .natural n => if n < word63 then some n else none
  | .negative i => some i
  | .float _ => none

end Number

end SpotGateway.Json
