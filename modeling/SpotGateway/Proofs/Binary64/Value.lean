import Mathlib.Algebra.Order.Field.Power
import SpotGateway.Binary64.Shortest
import SpotGateway.Proofs.Decimal.Value

/-!
# What floating-point numbers stand for

The rational number that a floating-point number stands for, and the numbers that round to it.

* `Binary64.magnitude`, `Binary64.value` — the number, without and with its sign;
* `Binary64.Finite` — significand and exponent are in bounds, and the precision is used;
* `Binary64.compareAt_eq` — decimal and binary multiples are compared by their values;
* `Binary64.Encloses` — the rounding interval, and `Binary64.roundsHere_iff`.
-/

set_option autoImplicit false

namespace SpotGateway

/-! ## Powers with whole exponents -/

theorem zpow_eq_div (b : ℚ) (e : Int) : b ^ e = b ^ e.toNat / b ^ (-e).toNat := by
  rcases Int.le_total 0 e with h | h
  · obtain ⟨n, rfl⟩ := Int.eq_ofNat_of_zero_le h
    simp
  · obtain ⟨n, hn⟩ := Int.eq_ofNat_of_zero_le (Int.neg_nonneg_of_nonpos h)
    obtain rfl : e = -(n : Int) := by omega
    simp

theorem cast_twoPow (k : Nat) : (twoPow k : ℚ) = 2 ^ k := by
  rw [twoPow_eq]
  push_cast
  rfl

theorem cast_tenPow (k : Nat) : (tenPow k : ℚ) = 10 ^ k := by
  rw [tenPow_eq]
  push_cast
  rfl

theorem two_zpow (e : Int) : (2 : ℚ) ^ e = twoPow e.toNat / twoPow (-e).toNat := by
  rw [cast_twoPow, cast_twoPow, zpow_eq_div]

theorem ten_zpow (p : Int) : (10 : ℚ) ^ p = tenPow p.toNat / tenPow (-p).toNat := by
  rw [cast_tenPow, cast_tenPow, zpow_eq_div]

theorem two_zpow_pos (e : Int) : (0 : ℚ) < 2 ^ e := zpow_pos (by norm_num) e

theorem ten_zpow_pos (p : Int) : (0 : ℚ) < 10 ^ p := zpow_pos (by norm_num) p

/-- Whole numbers compare like their quotients by a positive number. -/
theorem compare_natCast_div (a b : Nat) {d : ℚ} (hd : 0 < d) :
    compare a b = compare ((a : ℚ) / d) (b / d) := by
  rcases Nat.lt_trichotomy a b with h | h | h
  · have : (a : ℚ) / d < b / d := div_lt_div_of_pos_right (by exact_mod_cast h) hd
    rw [compare_lt_iff_lt.mpr h, compare_lt_iff_lt.mpr this]
  · rw [h, compare_eq_iff_eq.mpr rfl, compare_eq_iff_eq.mpr rfl]
  · have : (b : ℚ) / d < a / d := div_lt_div_of_pos_right (by exact_mod_cast h) hd
    rw [compare_gt_iff_gt.mpr h, compare_gt_iff_gt.mpr this]

namespace Binary64

variable {x : Binary64}

/-- The absolute value. -/
def magnitude (x : Binary64) : ℚ := x.significand * 2 ^ x.exponent

/-- The number. -/
def value (x : Binary64) : ℚ := signOf x.negative * x.magnitude

/-- Significand and exponent are in bounds, and the significand has full precision unless the
exponent is the least one. -/
structure Finite (x : Binary64) : Prop where
  significand_lt : x.significand < 2 ^ precision
  exponent_ge : minExponent ≤ x.exponent
  exponent_le : x.exponent ≤ maxExponent
  full : x.exponent = minExponent ∨ 2 ^ 52 ≤ x.significand

theorem magnitude_eq_div (x : Binary64) : x.magnitude = x.numerator / x.denominator := by
  rw [magnitude, numerator, denominator, two_zpow]
  push_cast
  ring

theorem denominator_pos (x : Binary64) : 0 < x.denominator := twoPow_pos _

theorem magnitude_pos (h : x.significand ≠ 0) : 0 < x.magnitude := by
  have : 0 < x.significand := Nat.pos_of_ne_zero h
  have := two_zpow_pos x.exponent
  unfold magnitude
  positivity

/-! ## The rounding interval -/

/-- A quarter of a unit in the last place. -/
def quarter (x : Binary64) : ℚ := 2 ^ (x.exponent - 2)

theorem quarter_pos (x : Binary64) : 0 < x.quarter := two_zpow_pos _

theorem quarter_eq (x : Binary64) : x.quarter = 2 ^ x.exponent / 4 := by
  rw [quarter, zpow_sub₀ two_ne_zero]
  norm_num

theorem magnitude_eq_quarter (x : Binary64) : x.magnitude = 4 * x.significand * x.quarter := by
  rw [magnitude, quarter_eq]
  ring

/-- Below a power of two, numbers lie twice as close. -/
def IsBoundary (x : Binary64) : Prop := x.significand = twoPow 52 ∧ minExponent < x.exponent

instance (x : Binary64) : Decidable x.IsBoundary :=
  inferInstanceAs (Decidable (x.significand = twoPow 52 ∧ minExponent < x.exponent))

/-- Half-way to the next number below. -/
def lowEnd (x : Binary64) : ℚ := x.magnitude - (if x.IsBoundary then 1 else 2) * x.quarter

/-- Half-way to the next number above. -/
def highEnd (x : Binary64) : ℚ := x.magnitude + 2 * x.quarter

/-- The number rounds to `x`: it is nearer to it than half-way to the next number below and above,
or half-way and the significand of `x` is even. -/
def Encloses (x : Binary64) (q : ℚ) : Prop :=
  (x.lowEnd < q ∨ x.significand % 2 = 0 ∧ q = x.lowEnd) ∧
    (q < x.highEnd ∨ x.significand % 2 = 0 ∧ q = x.highEnd)

theorem Encloses.low_le {q : ℚ} (h : x.Encloses q) : x.lowEnd ≤ q := by
  rcases h.1 with h | h
  · exact h.le
  · exact h.2.ge

theorem Encloses.le_high {q : ℚ} (h : x.Encloses q) : q ≤ x.highEnd := by
  rcases h.2 with h | h
  · exact h.le
  · exact h.2.le

/-- Decimal and binary multiples are compared by their values. -/
theorem compareAt_eq (x : Binary64) (c : Nat) (p : Int) (q : Nat) :
    x.compareAt c p q = compare ((c : ℚ) * 10 ^ p) (q * x.quarter) := by
  have hd : (0 : ℚ) < tenPow (-p).toNat * twoPow (-(x.exponent - 2)).toNat := by
    have := tenPow_pos (-p).toNat
    have := twoPow_pos (-(x.exponent - 2)).toNat
    positivity
  rw [compareAt, compare_natCast_div _ _ hd, quarter, two_zpow, ten_zpow]
  have := tenPow_pos (-p).toNat
  have := twoPow_pos (-(x.exponent - 2)).toNat
  congr 1 <;> push_cast <;> field_simp

theorem low_quarters (h : x.significand ≠ 0) : (x.quarters.2.1 : ℚ) * x.quarter = x.lowEnd := by
  have hpos : 1 ≤ x.significand := Nat.pos_of_ne_zero h
  have hlow : x.quarters.2.1 = 4 * x.significand - if x.IsBoundary then 1 else 2 := by
    unfold IsBoundary
    by_cases hb : x.significand = twoPow 52 ∧ minExponent < x.exponent <;> simp [quarters, hb]
  have hle : (if x.IsBoundary then 1 else 2) ≤ 4 * x.significand := by
    split <;> omega
  rw [lowEnd, magnitude_eq_quarter, hlow, Nat.cast_sub hle]
  push_cast
  ring

theorem high_quarters (x : Binary64) : (x.quarters.2.2 : ℚ) * x.quarter = x.highEnd := by
  rw [highEnd, magnitude_eq_quarter, quarters]
  push_cast
  ring

/-- **A decimal rounds to a number exactly if the rounding interval encloses it.** -/
theorem roundsHere_iff (h : x.significand ≠ 0) {c : Nat} {p : Int} :
    x.roundsHere c p = true ↔ x.Encloses (c * 10 ^ p) := by
  simp only [roundsHere, compareAt_eq, low_quarters h, high_quarters, Encloses, Bool.and_eq_true,
    Bool.or_eq_true, beq_iff_eq, compare_gt_iff_gt, compare_lt_iff_lt, compare_eq_iff_eq]

end Binary64

end SpotGateway
