import Mathlib.Algebra.Order.Floor.Semifield
import Mathlib.Data.Rat.Floor
import Mathlib.Tactic.FieldSimp
import Mathlib.Tactic.Linarith
import Mathlib.Tactic.NormNum
import Mathlib.Tactic.Positivity
import Mathlib.Tactic.Ring
import SpotGateway.Decimal.Reader
import SpotGateway.Proofs.Decimal.Difference

/-!
# What decimals stand for

The rational number that a decimal stands for, and what shifting its point does to it.

* `Decimal.value` — the number, with `Decimal.same_iff` and `Decimal.lt_iff`;
* `Decimal.Holds` — numbers that some decimal stands for;
* `nearestPlace` — the nearest number of 28 places, a half going away from zero;
* `Decimal.value_of_shiftDown`, `Decimal.value_of_shiftUp`, `Decimal.shiftUp_isSome` — the point
  shifted in scientific notation.
-/

set_option autoImplicit false

namespace SpotGateway

theorem tenPow_eq (k : Nat) : tenPow k = 10 ^ k := rfl

theorem twoPow_eq (k : Nat) : twoPow k = 2 ^ k := rfl

/-- Minus one for negative numbers, and one for others. -/
def signOf (negative : Bool) : ℚ := if negative then -1 else 1

theorem abs_signOf (negative : Bool) : |signOf negative| = 1 := by
  cases negative <;> simp [signOf]

/-- The nearest number of 28 places, a half going away from zero. -/
def nearestPlace (q : ℚ) : ℚ :=
  signOf (decide (q < 0)) * (⌊|q| * 10 ^ maxScale + 1 / 2⌋₊ : ℚ) / 10 ^ maxScale

/-- Multiples of the last of 28 places are nearest to themselves. -/
theorem nearestPlace_of_mul (negative : Bool) (n : Nat) {q : ℚ}
    (h : q * 10 ^ maxScale = signOf negative * n) : nearestPlace q = q := by
  have hpow : (0 : ℚ) < 10 ^ maxScale := by positivity
  have habs : |q| * 10 ^ maxScale = n := by
    have := congrArg abs h
    rwa [abs_mul, abs_mul, abs_signOf, one_mul, abs_of_pos hpow, Nat.abs_cast] at this
  have hfloor : ⌊|q| * 10 ^ maxScale + 1 / 2⌋₊ = n := by
    rw [habs, Nat.floor_eq_iff (by positivity)]
    constructor <;> linarith
  unfold nearestPlace
  rw [hfloor, ← habs]
  by_cases hq : q < 0
  · rw [abs_of_neg hq]
    simp only [hq, decide_true, signOf, if_true]
    field_simp
  · rw [abs_of_nonneg (not_lt.mp hq)]
    simp only [hq, decide_false, signOf]
    field_simp
    simp

/-- Numbers of up to 28 places are nearest to themselves. -/
theorem nearestPlace_of_places (negative : Bool) (m : Nat) {s : Nat} (hs : s ≤ maxScale) :
    nearestPlace (signOf negative * m / 10 ^ s) = signOf negative * m / 10 ^ s := by
  refine nearestPlace_of_mul negative (m * 10 ^ (maxScale - s)) ?_
  obtain ⟨j, hj⟩ := Nat.exists_eq_add_of_le hs
  rw [hj, Nat.add_sub_cancel_left, pow_add]
  push_cast
  field_simp

namespace Decimal

/-- The number that a decimal stands for. -/
def value (d : Decimal) : ℚ := d.coefficient / 10 ^ d.scale

theorem coefficient_eq (d : Decimal) : (d.coefficient : ℚ) = signOf d.negative * d.magnitude := by
  unfold coefficient signOf
  split <;> simp

theorem value_eq (d : Decimal) : d.value = signOf d.negative * d.magnitude / 10 ^ d.scale := by
  rw [value, coefficient_eq]

theorem abs_value (d : Decimal) : |d.value| = d.magnitude / 10 ^ d.scale := by
  rw [value_eq, abs_div, abs_mul, abs_signOf, one_mul, Nat.abs_cast,
    abs_of_pos (by positivity : (0 : ℚ) < 10 ^ d.scale)]

theorem value_of_signed? {negative : Bool} {m s : Nat} {d : Decimal}
    (h : signed? negative m s = some d) : d.value = signOf negative * m / 10 ^ s := by
  obtain ⟨rfl, rfl, rfl⟩ := signed?_eq_some_iff.mp h
  exact value_eq d

theorem signed?_isSome (negative : Bool) {m s : Nat} (hm : m < coefficientLimit)
    (hs : s ≤ maxScale) : ∃ d, signed? negative m s = some d :=
  ⟨_, dif_pos ⟨hm, hs⟩⟩

theorem value_of_make? {c : Int} {s : Nat} {d : Decimal} (h : make? c s = some d) :
    d.value = c / 10 ^ s := by
  have hscale := (signed?_eq_some_iff.mp h).2.2
  rw [value, coefficient_of_make? h, hscale]

/-- Two decimals are the same if they stand for the same number. -/
theorem same_iff {a b : Decimal} : a.same b = true ↔ a.value = b.value := by
  have ha : (10 : ℚ) ^ a.scale ≠ 0 := by positivity
  have hb : (10 : ℚ) ^ b.scale ≠ 0 := by positivity
  rw [same, beq_iff_eq, value, value, div_eq_div_iff ha hb, tenPow_eq, tenPow_eq]
  exact_mod_cast Iff.rfl

theorem value_zero : zero.value = 0 := by
  simp [value, zero, coefficient]

theorem value_eq_zero_iff {d : Decimal} : d.value = 0 ↔ d.isZero = true := by
  have hpow : (10 : ℚ) ^ d.scale ≠ 0 := by positivity
  rw [← abs_eq_zero, abs_value, div_eq_zero_iff, or_iff_left hpow, Nat.cast_eq_zero, isZero,
    beq_iff_eq]

/-- Decimals are ordered like the numbers that they stand for. -/
theorem lt_iff {a b : Decimal} : a < b ↔ a.value < b.value := by
  have ha : (0 : ℚ) < 10 ^ a.scale := by positivity
  have hb : (0 : ℚ) < 10 ^ b.scale := by positivity
  have hunits : a < b ↔ a.coefficient * tenPow b.scale < b.coefficient * tenPow a.scale := Iff.rfl
  rw [hunits, value, value, div_lt_div_iff₀ ha hb, tenPow_eq, tenPow_eq]
  exact_mod_cast Iff.rfl

/-- Some decimal stands for the number. -/
def Holds (q : ℚ) : Prop := ∃ d : Decimal, d.value = q

theorem Holds.abs_eq {q : ℚ} (h : Holds q) :
    ∃ m s : Nat, m < coefficientLimit ∧ s ≤ maxScale ∧ |q| = m / 10 ^ s := by
  obtain ⟨d, rfl⟩ := h
  exact ⟨d.magnitude, d.scale, d.magnitude_lt, d.scale_le, d.abs_value⟩

theorem holds_of_digits (negative : Bool) {m s : Nat} (hm : m < coefficientLimit)
    (hs : s ≤ maxScale) : Holds (signOf negative * m / 10 ^ s) := by
  obtain ⟨d, hd⟩ := signed?_isSome negative hm hs
  exact ⟨d, value_of_signed? hd⟩

theorem holds_of_abs_eq {q : ℚ} {m s : Nat} (hm : m < coefficientLimit) (hs : s ≤ maxScale)
    (h : |q| = m / 10 ^ s) : Holds q := by
  rcases abs_choice q with hq | hq
  · have := holds_of_digits false hm hs
    rwa [signOf, if_neg (by decide), one_mul, ← h, hq] at this
  · have := holds_of_digits true hm hs
    rwa [signOf, if_pos rfl, neg_one_mul, neg_div, ← h, hq, neg_neg] at this

theorem Holds.nearestPlace_eq {q : ℚ} (h : Holds q) : nearestPlace q = q := by
  obtain ⟨d, rfl⟩ := h
  rw [value_eq, nearestPlace_of_places _ _ d.scale_le]

theorem Holds.abs {q : ℚ} (h : Holds q) : Holds |q| := by
  obtain ⟨m, s, hm, hs, hvalue⟩ := h.abs_eq
  rw [hvalue, ← one_mul (m : ℚ)]
  exact holds_of_digits false hm hs

theorem Holds.abs_lt {q : ℚ} (h : Holds q) : |q| < coefficientLimit := by
  obtain ⟨m, s, hm, -, hvalue⟩ := h.abs_eq
  rw [hvalue]
  calc (m : ℚ) / 10 ^ s ≤ m := div_le_self (by positivity) (one_le_pow₀ (by norm_num))
    _ < coefficientLimit := by exact_mod_cast hm

/-- A number of which some decimal stands for a fraction, and that is not too large. -/
theorem holds_of_div {q : ℚ} {k : Nat} (h : Holds (q / 10 ^ k)) (hlt : |q| < coefficientLimit) :
    Holds q := by
  obtain ⟨m, s, hm, hs, hvalue⟩ := h.abs_eq
  have hpow : (0 : ℚ) < 10 ^ k := by positivity
  rw [abs_div, abs_of_pos hpow, div_eq_div_iff hpow.ne' (by positivity)] at hvalue
  rcases Nat.le_total k s with hks | hsk
  · obtain ⟨j, rfl⟩ := Nat.exists_eq_add_of_le hks
    refine holds_of_abs_eq hm (Nat.le_trans (Nat.le_add_left j k) hs) ?_
    rw [pow_add] at hvalue
    field_simp
    refine mul_left_cancel₀ hpow.ne' ?_
    linarith
  · obtain ⟨j, rfl⟩ := Nat.exists_eq_add_of_le hsk
    have habs : |q| = (m * 10 ^ j : Nat) / 10 ^ 0 := by
      rw [pow_add] at hvalue
      push_cast
      rw [pow_zero, div_one]
      refine mul_left_cancel₀ (by positivity : (10 : ℚ) ^ s ≠ 0) ?_
      linarith
    refine holds_of_abs_eq ?_ (Nat.zero_le _) habs
    rw [habs, pow_zero, div_one] at hlt
    exact_mod_cast hlt

/-! ## Shifting the point -/

/-- Half a unit more, cut off, is the nearest whole number. -/
theorem floor_half_eq (m u : Nat) (hu : 0 < u) :
    ⌊(m : ℚ) / u + 1 / 2⌋₊ = (2 * m + u) / (2 * u) := by
  have hsum : (m : ℚ) / u + 1 / 2 = ((2 * m + u : Nat) : ℚ) / ((2 * u : Nat) : ℚ) := by
    have : (u : ℚ) ≠ 0 := by positivity
    push_cast
    field_simp
  rw [hsum, Nat.floor_div_eq_div]

/-- A decimal that is not zero has the sign of the number that it stands for. -/
theorem decide_value_neg {d : Decimal} (h : d.magnitude ≠ 0) (k : Nat) :
    decide (d.value / 10 ^ k < 0) = d.negative := by
  have hpos : (0 : ℚ) < d.magnitude / 10 ^ d.scale / 10 ^ k := by
    have : 0 < d.magnitude := Nat.pos_of_ne_zero h
    positivity
  rw [value_eq, mul_div_assoc, mul_div_assoc]
  cases d.negative with
  | true =>
    have : signOf true * (d.magnitude / 10 ^ d.scale / 10 ^ k) < 0 := by
      rw [signOf, if_pos rfl]
      linarith
    exact decide_eq_true this
  | false =>
    have : ¬ signOf false * (d.magnitude / 10 ^ d.scale / 10 ^ k) < 0 := by
      rw [signOf, if_neg (by decide), one_mul]
      exact hpos.not_gt
    exact decide_eq_false this

/-- Rounding a quotient of a decimal to 28 places, by the digits that are cut off. -/
theorem nearestPlace_of_cut (d : Decimal) {k j : Nat} (hk : k ≤ maxScale)
    (hj : d.scale = maxScale - k + j) :
    nearestPlace (d.value / 10 ^ k) =
      signOf d.negative * ((2 * d.magnitude + 10 ^ j) / (2 * 10 ^ j) : Nat) / 10 ^ maxScale := by
  have habs : |d.value / 10 ^ k| * 10 ^ maxScale = d.magnitude / (10 ^ j : Nat) := by
    obtain ⟨i, hi⟩ := Nat.exists_eq_add_of_le hk
    rw [abs_div, d.abs_value, abs_of_pos (by positivity : (0 : ℚ) < 10 ^ k), hj, hi,
      Nat.add_sub_cancel_left, pow_add, pow_add]
    push_cast
    field_simp
  rw [nearestPlace, habs, floor_half_eq _ _ (by positivity)]
  by_cases hzero : d.magnitude = 0
  · have : (2 * d.magnitude + 10 ^ j) / (2 * 10 ^ j) = 0 := by
      rw [hzero]
      exact Nat.div_eq_of_lt (by have := Nat.pow_pos (n := j) (show 0 < 10 by decide); omega)
    simp [this]
  · rw [decide_value_neg hzero k]

/-- Moving the point down by up to 28 places gives the nearest number of 28 places. -/
theorem value_of_shiftDown (d : Decimal) {k : Nat} (hk : k ≤ maxScale) :
    ∃ r, d.shiftDown k = some r ∧ r.value = nearestPlace (d.value / 10 ^ k) := by
  unfold shiftDown
  split
  · rename_i hfits
    obtain ⟨r, hr⟩ := signed?_isSome d.negative d.magnitude_lt hfits
    refine ⟨r, hr, ?_⟩
    have hvalue : d.value / 10 ^ k = signOf d.negative * d.magnitude / 10 ^ (d.scale + k) := by
      rw [d.value_eq, pow_add]
      field_simp
    rw [hvalue, nearestPlace_of_places _ _ hfits, value_of_signed? hr]
  · rename_i hlong
    obtain ⟨j, hj⟩ : ∃ j, d.scale = maxScale - k + j := ⟨d.scale - (maxScale - k), by omega⟩
    have hunit : tenPow (d.scale - (maxScale - k)) = 10 ^ j := by
      rw [hj, Nat.add_sub_cancel_left, tenPow_eq]
    have hsmall : (2 * d.magnitude + 10 ^ j) / (2 * 10 ^ j) < coefficientLimit := by
      refine Nat.lt_of_le_of_lt (Nat.le_of_lt_succ ?_) d.magnitude_lt
      have hu : 1 ≤ 10 ^ j := Nat.one_le_pow _ _ (by decide)
      have hle : d.magnitude * 1 ≤ d.magnitude * 10 ^ j := Nat.mul_le_mul_left _ hu
      rw [Nat.div_lt_iff_lt_mul (by positivity), Nat.succ_mul]
      linarith
    obtain ⟨r, hr⟩ := signed?_isSome d.negative hsmall (Nat.sub_le maxScale k)
    obtain ⟨hsign, hmagnitude, -⟩ := signed?_eq_some_iff.mp hr
    obtain ⟨r', hr'⟩ := signed?_isSome r.negative r.magnitude_lt (Nat.le_refl _)
    refine ⟨r', ?_, ?_⟩
    · rw [roundToScale, if_neg (by omega), hunit, hr]
      exact hr'
    · rw [value_of_signed? hr', hmagnitude, hsign, nearestPlace_of_cut d hk hj]

/-- Moving the point up multiplies. -/
theorem value_of_shiftUp {d r : Decimal} {k : Nat} (h : d.shiftUp k = some r) :
    r.value = d.value * 10 ^ k := by
  unfold shiftUp at h
  split at h
  · rename_i hk
    obtain ⟨j, hj⟩ := Nat.exists_eq_add_of_le hk
    rw [value_of_signed? h, d.value_eq, hj, Nat.add_sub_cancel_left, pow_add]
    field_simp
  · rename_i hk
    obtain ⟨j, hj⟩ := Nat.exists_eq_add_of_le (Nat.le_of_not_le hk)
    rw [value_of_make? h, value, hj, Nat.add_sub_cancel_left, tenPow_eq, pow_add]
    push_cast
    field_simp

/-- The point can be moved up as long as the result is a decimal. -/
theorem shiftUp_isSome {d : Decimal} {k : Nat} (h : Holds (d.value * 10 ^ k)) :
    ∃ r, d.shiftUp k = some r := by
  unfold shiftUp
  split
  · exact signed?_isSome _ d.magnitude_lt (Nat.le_trans (Nat.sub_le _ _) d.scale_le)
  · rename_i hk
    refine signed?_isSome _ ?_ (Nat.zero_le _)
    obtain ⟨m, s, hm, -, hvalue⟩ := h.abs_eq
    obtain ⟨j, hj⟩ := Nat.exists_eq_add_of_le (Nat.le_of_not_le hk)
    rw [abs_mul, d.abs_value, abs_of_pos (by positivity : (0 : ℚ) < 10 ^ k), hj, pow_add] at hvalue
    have hwhole : ((d.magnitude * 10 ^ j * 10 ^ s : Nat) : ℚ) = m := by
      field_simp at hvalue
      push_cast
      linarith
    have hwhole : d.magnitude * 10 ^ j * 10 ^ s = m := by exact_mod_cast hwhole
    rw [natAbs_coefficient_mul, hj, Nat.add_sub_cancel_left, tenPow_eq]
    exact Nat.lt_of_le_of_lt (Nat.le_mul_of_pos_right _ (by positivity)) (hwhole ▸ hm)

end Decimal

end SpotGateway
