import SpotGateway.Binary64.Basic
import SpotGateway.Text.Digits

/-!
# Shortest digits of a floating-point number

The fewest decimal digits that still identify a number, and of those the nearest to it.  The reals
that round to a number form an interval around it, which contains its ends when the significand is
even.  For one digit, two digits and so on, the two multiples of the last place next to the number
are tried; the first number of digits with a hit is the answer.

* `Binary64.shortest` — the digits, as a whole number and a power of ten;
* `Layout` — when a number is written positionally and whether whole numbers show a point;
* `Binary64.text` — the number in a layout.
-/

set_option autoImplicit false

namespace SpotGateway

/-- How a number is laid out. -/
structure Layout where
  /-- Whether a number whose digits follow `0.` after moving the point this far is positional. -/
  positional : Int → Bool
  /-- Whole numbers are written with `.0`. -/
  wholePoint : Bool

/-- JSON numbers: positional from `0.00001` to below `10 ^ 16`, with a digit behind the point. -/
def Layout.json : Layout := ⟨fun point => decide (-4 ≤ point ∧ point ≤ 16), true⟩

/-- All digits in place, however many. -/
def Layout.plain : Layout := ⟨fun _ => true, false⟩

namespace Binary64

/-- A quarter of the unit in the last place is `2 ^ (exponent - 2)`; how many of those the number
has, and how many its rounding interval reaches to below and above. -/
def quarters (x : Binary64) : Nat × Nat × Nat :=
  let v := 4 * x.significand
  let low := if x.significand = twoPow 52 ∧ minExponent < x.exponent then v - 1 else v - 2
  (v, low, v + 2)

/-- Compare `c * 10 ^ p` with `q` quarters. -/
def compareAt (x : Binary64) (c : Nat) (p : Int) (q : Nat) : Ordering :=
  let e := x.exponent - 2
  compare (c * tenPow p.toNat * twoPow (-e).toNat) (q * twoPow e.toNat * tenPow (-p).toNat)

/-- Whether the number is below `10 ^ k`. -/
def below (x : Binary64) (k : Int) : Bool := x.compareAt 1 k x.quarters.1 == .gt

/-- How far the point moves left to stand before the first digit. -/
def point (x : Binary64) : Int :=
  let bits : Int := (Nat.log2 x.significand : Int) + x.exponent
  let least := bits * 30103 / 100000 - 1
  match (List.range 5).find? fun i => x.below (least + (i : Nat)) with
  | some i => least + (i : Nat)
  | none => least + 5

/-- Whether `c * 10 ^ p` rounds to the number. -/
def roundsHere (x : Binary64) (c : Nat) (p : Int) : Bool :=
  let (_, low, high) := x.quarters
  let closed := x.significand % 2 == 0
  let below := x.compareAt c p low
  let above := x.compareAt c p high
  (below == .gt || (closed && below == .eq)) && (above == .lt || (closed && above == .eq))

/-- The multiple of `10 ^ p` just below the number, as a count. -/
def floorAt (x : Binary64) (p : Int) : Nat :=
  (x.numerator * tenPow (-p).toNat) / (x.denominator * tenPow p.toNat)

/-- Whether the number is nearer to `c * 10 ^ p` than to the next multiple, a tie going to the even
one. -/
def lowerIsNearer (x : Binary64) (c : Nat) (p : Int) : Bool :=
  match x.compareAt (2 * c + 1) p (2 * x.quarters.1) with
  | .gt => true
  | .eq => c % 2 == 0
  | .lt => false

/-- The multiple of `10 ^ p` that rounds to the number and is nearest to it. -/
def hitAt (x : Binary64) (p : Int) : Option Nat :=
  let c := x.floorAt p
  match x.roundsHere c p, x.roundsHere (c + 1) p with
  | true, true => some (if x.lowerIsNearer c p then c else c + 1)
  | true, false => some c
  | false, true => some (c + 1)
  | false, false => none

/-- Drop zeros at the end, at most `fuel` of them. -/
def dropZeros : Nat → Nat → Int → Nat × Int
  | 0, c, p => (c, p)
  | fuel + 1, c, p => if c % 10 = 0 then dropZeros fuel (c / 10) (p + 1) else (c, p)

/-- The shortest digits and their power of ten, for a number other than zero. -/
def shortest (x : Binary64) : Nat × Int :=
  let places := (List.range 17).map fun n => x.point - (n + 1 : Nat)
  match places.findSome? fun p => (x.hitAt p).map fun c => (c, p) with
  | some (c, p) => dropZeros 17 c p
  | none => (x.significand, x.exponent)

/-- Positional text of `c * 10 ^ p`. -/
def positionalText (c : Nat) (p : Int) (wholePoint : Bool) : String :=
  if 0 ≤ p then Text.decimal (c * tenPow p.toNat) ++ (if wholePoint then ".0" else "")
  else
    let places := (-p).toNat
    Text.decimal (c / tenPow places) ++ "." ++ Text.padded places (c % tenPow places)

/-- Scientific text of `c * 10 ^ p`: one digit, a point where more follow, and a signed power. -/
def scientificText (c : Nat) (p : Int) : String :=
  let ds := Nat.toDigits 10 c
  let power := p + ((ds.length - 1 : Nat) : Int)
  let fraction := if ds.length = 1 then "" else "." ++ String.ofList (ds.drop 1)
  String.ofList (ds.take 1) ++ fraction ++ "e" ++ (if power < 0 then "-" else "+") ++
    Text.decimal power.natAbs

/-- The number in a layout. -/
def text (layout : Layout) (x : Binary64) : String :=
  (if x.negative then "-" else "") ++
    (if x.isZero then (if layout.wholePoint then "0.0" else "0")
    else
      let (c, p) := x.shortest
      if layout.positional x.point then positionalText c p layout.wholePoint
      else scientificText c p)

end Binary64

end SpotGateway
