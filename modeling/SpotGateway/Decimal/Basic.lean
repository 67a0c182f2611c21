import SpotGateway.Power
import SpotGateway.Text.Digits

/-!
# Decimals

Amounts and prices: a sign, a whole number of up to 96 bits, and up to 28 of its digits behind the
point.  The scale is part of the value, since text shows it (`1.5` and `1.50` are equal and written
differently).  So is the sign: what a rounding has left of a small negative number is a zero that is
written with a minus and equals every other zero.

* `Decimal` — the type, with its two bounds;
* `Decimal.signed?` — the decimal of a sign, a magnitude and a scale, where they are in bounds;
* `Decimal.make?` — the decimal of an integer and a scale, whose zero has no minus;
* `≤`, `<`, `Decimal.same` — comparison by value;
* `Decimal.text` — positional notation with every digit of the scale.
-/

set_option autoImplicit false

namespace SpotGateway

/-- Magnitudes are smaller than this. -/
def coefficientLimit : Nat := twoPow 96

/-- At most this many digits stand behind the point. -/
def maxScale : Nat := 28

/-- The number `± magnitude / 10 ^ scale`. -/
structure Decimal where
  negative : Bool
  magnitude : Nat
  scale : Nat
  magnitude_lt : magnitude < coefficientLimit
  scale_le : scale ≤ maxScale
  deriving DecidableEq, Repr

namespace Decimal

/-- The decimal `± magnitude / 10 ^ scale`, if it is in bounds. -/
def signed? (negative : Bool) (magnitude scale : Nat) : Option Decimal :=
  if h : magnitude < coefficientLimit ∧ scale ≤ maxScale then
    some ⟨negative, magnitude, scale, h.1, h.2⟩
  else none

theorem signed?_eq_some_iff {n : Bool} {m s : Nat} {d : Decimal} :
    signed? n m s = some d ↔ d.negative = n ∧ d.magnitude = m ∧ d.scale = s := by
  unfold signed?
  split
  · rename_i h
    constructor
    · intro e
      cases e
      exact ⟨rfl, rfl, rfl⟩
    · rintro ⟨rfl, rfl, rfl⟩
      rfl
  · rename_i h
    constructor
    · intro e
      cases e
    · rintro ⟨rfl, rfl, rfl⟩
      exact absurd ⟨d.magnitude_lt, d.scale_le⟩ h

/-- The magnitude with its sign. -/
def coefficient (d : Decimal) : Int := if d.negative then -(d.magnitude : Int) else d.magnitude

theorem natAbs_coefficient (d : Decimal) : d.coefficient.natAbs = d.magnitude := by
  unfold coefficient
  split
  · rw [Int.natAbs_neg, Int.natAbs_natCast]
  · rw [Int.natAbs_natCast]

/-- The decimal `coefficient / 10 ^ scale`, if it is in bounds. -/
def make? (coefficient : Int) (scale : Nat) : Option Decimal :=
  signed? (coefficient < 0) coefficient.natAbs scale

theorem coefficient_of_make? {c : Int} {s : Nat} {d : Decimal} (h : make? c s = some d) :
    d.coefficient = c := by
  obtain ⟨sign, size, -⟩ := signed?_eq_some_iff.1 h
  unfold coefficient
  rw [sign, size]
  split
  · rename_i below
    have : c < 0 := of_decide_eq_true below
    omega
  · rename_i above
    have : ¬ c < 0 := fun below => above (decide_eq_true below)
    omega

def zero : Decimal := ⟨false, 0, 0, by decide, by decide⟩

def one : Decimal := ⟨false, 1, 0, by decide, by decide⟩

def two : Decimal := ⟨false, 2, 0, by decide, by decide⟩

instance : Inhabited Decimal := ⟨zero⟩

/-- A whole number of at most 64 bits. -/
def ofInt? (i : Int) : Option Decimal := make? i 0

def isZero (d : Decimal) : Bool := d.magnitude == 0

/-- The same value, a zero without its minus. -/
def unsignedZero (d : Decimal) : Decimal :=
  if d.isZero then { d with negative := false } else d

theorem coefficient_eq_zero {d : Decimal} (h : d.isZero = true) : d.coefficient = 0 := by
  have none : d.magnitude = 0 := eq_of_beq h
  unfold coefficient
  rw [none]
  split
  · exact Int.neg_zero
  · rfl

theorem coefficient_unsignedZero (d : Decimal) : d.unsignedZero.coefficient = d.coefficient := by
  unfold unsignedZero
  split
  · rename_i h
    rw [coefficient_eq_zero h]
    exact coefficient_eq_zero h
  · rfl

instance : LE Decimal :=
  ⟨fun a b => a.coefficient * tenPow b.scale ≤ b.coefficient * tenPow a.scale⟩

instance : LT Decimal :=
  ⟨fun a b => a.coefficient * tenPow b.scale < b.coefficient * tenPow a.scale⟩

instance (a b : Decimal) : Decidable (a ≤ b) :=
  inferInstanceAs (Decidable (a.coefficient * tenPow b.scale ≤ b.coefficient * tenPow a.scale))

instance (a b : Decimal) : Decidable (a < b) :=
  inferInstanceAs (Decidable (a.coefficient * tenPow b.scale < b.coefficient * tenPow a.scale))

theorem not_le {a b : Decimal} : ¬ a ≤ b ↔ b < a := Int.not_le

theorem not_lt {a b : Decimal} : ¬ a < b ↔ b ≤ a := Int.not_lt

/-- Equality by value, whatever the scales. -/
def same (a b : Decimal) : Bool := a.coefficient * tenPow b.scale == b.coefficient * tenPow a.scale

/-- The value itself, or zero if it is less than that. -/
def orZero (d : Decimal) : Decimal := if d < zero then zero else d

/-- The opposite number.  A zero stays as it is. -/
def neg (d : Decimal) : Decimal := if d.isZero then d else { d with negative := !d.negative }

theorem coefficient_neg (d : Decimal) : d.neg.coefficient = -d.coefficient := by
  unfold neg
  split
  · rename_i h
    rw [coefficient_eq_zero h, Int.neg_zero]
  · unfold coefficient
    cases d.negative
    · rfl
    · exact (Int.neg_neg _).symm

/-- The greatest whole number that is not above the value, with scale zero. -/
def floor (d : Decimal) : Decimal :=
  ⟨d.negative, (d.coefficient / tenPow d.scale).natAbs, 0,
    Nat.lt_of_le_of_lt (Int.natAbs_ediv_le_natAbs _ _)
      (d.natAbs_coefficient.symm ▸ d.magnitude_lt),
    by decide⟩

/-- Positional notation: the sign, the whole part, and every digit of the scale. -/
def text (d : Decimal) : String :=
  let whole := Text.decimal (d.magnitude / tenPow d.scale)
  let fraction :=
    if d.scale = 0 then "" else "." ++ Text.padded d.scale (d.magnitude % tenPow d.scale)
  (if d.negative then "-" else "") ++ whole ++ fraction

instance : ToString Decimal := ⟨text⟩

end Decimal

end SpotGateway
