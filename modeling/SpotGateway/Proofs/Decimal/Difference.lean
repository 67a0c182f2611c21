import Mathlib.Tactic.Linarith
import Mathlib.Tactic.Ring
import SpotGateway.Decimal.Arithmetic

/-!
# Differences of decimals

When one decimal can be taken from another.

* `Decimal.halfEven_le`, `Decimal.le_halfEven` — what is rounded moves by half a unit at most;
* `Decimal.fit_eq_none_iff` — a number has no nearest decimal exactly if its nearest whole number
  leaves 96 bits;
* `Decimal.difference`, `Decimal.sub_eq_error_iff` — the exact difference, and when it has no
  decimal;
* `Decimal.sub_isOk_of_nonneg` — the difference of two numbers that are not negative always has one.
-/

set_option autoImplicit false

namespace SpotGateway.Decimal

/-! ## Rounding -/

theorem halfEven_le (n k : Nat) : 2 * (halfEven n k * tenPow k) ≤ 2 * n + tenPow k := by
  have hdiv := Nat.div_add_mod n (tenPow k)
  have hcomm : n / tenPow k * tenPow k = tenPow k * (n / tenPow k) := Nat.mul_comm _ _
  simp only [halfEven]
  split
  · rw [Nat.add_mul, Nat.one_mul]
    omega
  · omega

theorem le_halfEven (n k : Nat) : 2 * n ≤ 2 * (halfEven n k * tenPow k) + tenPow k := by
  have hdiv := Nat.div_add_mod n (tenPow k)
  have hlt := Nat.mod_lt n (tenPow_pos k)
  have hcomm : n / tenPow k * tenPow k = tenPow k * (n / tenPow k) := Nat.mul_comm _ _
  simp only [halfEven]
  split
  · rw [Nat.add_mul, Nat.one_mul]
    omega
  · omega

/-- What is at most a whole number is rounded to that number at most. -/
theorem halfEven_le_of_le_mul {n k m : Nat} (h : n ≤ m * tenPow k) : halfEven n k ≤ m := by
  have hrounded := halfEven_le n k
  by_contra hlt
  have hnext : (m + 1) * tenPow k ≤ halfEven n k * tenPow k :=
    Nat.mul_le_mul_right _ (Nat.lt_of_not_le hlt)
  rw [Nat.add_mul, Nat.one_mul] at hnext
  have := tenPow_pos k
  omega

/-- What fits after fewer digits were lost fits after more were lost. -/
theorem halfEven_lt_of_le {n j k : Nat} (hjk : j ≤ k) (h : halfEven n j < coefficientLimit) :
    halfEven n k < coefficientLimit := by
  rcases Nat.eq_or_lt_of_le hjk with rfl | hjk
  · exact h
  · -- one digit more is lost, which makes up for the half unit that `n` may exceed the limit by
    refine Nat.lt_of_le_of_lt (halfEven_le_of_le_mul (m := coefficientLimit - 1) ?_) (by decide)
    obtain ⟨i, rfl⟩ := Nat.exists_eq_add_of_lt hjk
    have hpow : tenPow (j + i + 1) = tenPow j * 10 * tenPow i := by
      rw [tenPow_succ, tenPow_add]
      ring
    have hrounded := le_halfEven n j
    have hunits : halfEven n j * tenPow j ≤ (coefficientLimit - 1) * tenPow j :=
      Nat.mul_le_mul_right _ (Nat.le_sub_one_of_lt h)
    have hone : 1 * tenPow j ≤ (coefficientLimit - 1) * tenPow j :=
      Nat.mul_le_mul_right _ (by decide)
    have htimes : (coefficientLimit - 1) * tenPow j * 10 * 1 ≤
        (coefficientLimit - 1) * tenPow j * 10 * tenPow i :=
      Nat.mul_le_mul_left _ (tenPow_pos i)
    rw [hpow, ← Nat.mul_assoc, ← Nat.mul_assoc]
    omega

/-- A number has no nearest decimal exactly if its nearest whole number leaves 96 bits. -/
theorem fit_eq_none_iff {negative : Bool} {n scale : Nat} :
    fit negative n scale = none ↔ coefficientLimit ≤ halfEven n scale := by
  unfold fit
  constructor
  · intro h
    by_contra hlt
    have hfits : fitsAfter n scale scale = true := by
      simp [fitsAfter, Nat.lt_of_not_le hlt]
    cases hfind : (List.range (scale + 1)).find? (fitsAfter n scale) with
    | none =>
      rw [List.find?_eq_none] at hfind
      exact hfind scale (List.mem_range.mpr (Nat.lt_succ_self scale)) hfits
    | some k =>
      have hk := List.find?_some hfind
      simp only [fitsAfter, Bool.and_eq_true, decide_eq_true_eq] at hk
      simp [hfind, signed?, hk] at h
  · intro h
    have hfind : (List.range (scale + 1)).find? (fitsAfter n scale) = none := by
      rw [List.find?_eq_none]
      intro k hk hfits
      simp only [fitsAfter, Bool.and_eq_true, decide_eq_true_eq] at hfits
      have := halfEven_lt_of_le (Nat.le_of_lt_succ (List.mem_range.mp hk)) hfits.2
      omega
    rw [hfind]

/-! ## Differences -/

/-- The exact difference in units of the larger scale. -/
def difference (a b : Decimal) : Int :=
  a.coefficient * tenPow (max a.scale b.scale - a.scale) -
    b.coefficient * tenPow (max a.scale b.scale - b.scale)

/-- At any scale a decimal is at most as many whole units as its digits can hold. -/
theorem magnitude_mul_le (d : Decimal) (scale : Nat) :
    d.magnitude * tenPow (scale - d.scale) ≤ (coefficientLimit - 1) * tenPow scale := by
  have hmagnitude : d.magnitude ≤ coefficientLimit - 1 := Nat.le_sub_one_of_lt d.magnitude_lt
  have hpow : tenPow (scale - d.scale) ≤ tenPow scale :=
    Nat.pow_le_pow_right (by decide) (Nat.sub_le scale d.scale)
  exact Nat.mul_le_mul hmagnitude hpow

theorem natAbs_coefficient_mul (d : Decimal) (k : Nat) :
    (d.coefficient * tenPow k).natAbs = d.magnitude * tenPow k := by
  rw [Int.natAbs_mul, natAbs_coefficient, Int.natAbs_natCast]

/-- **When a difference has no decimal.**  Exactly if the whole number nearest to it leaves 96
bits. -/
theorem sub_eq_error_iff {a b : Decimal} {fault : Fault} :
    a.sub b = .error fault ↔ fault = .decimalOverflow ∧
      coefficientLimit ≤ halfEven (a.difference b).natAbs (max a.scale b.scale) := by
  have hscale : b.neg.scale = b.scale := by
    unfold neg
    split <;> rfl
  have hzero : b.neg.isZero = b.isZero := by
    unfold neg
    split <;> rfl
  have hfits : ∀ (d : Decimal),
      (a.difference b).natAbs = (d.coefficient * tenPow (max a.scale b.scale - d.scale)).natAbs →
      halfEven (a.difference b).natAbs (max a.scale b.scale) < coefficientLimit := by
    intro d hsize
    rw [hsize, natAbs_coefficient_mul]
    exact Nat.lt_of_le_of_lt (halfEven_le_of_le_mul (d.magnitude_mul_le _)) (by decide)
  unfold sub add
  by_cases ha : a.isZero = true
  · have hlt := hfits b (by
      rw [difference, coefficient_eq_zero ha, Int.zero_mul, Int.zero_sub, Int.natAbs_neg])
    simp only [ha, if_true, reduceCtorEq, false_iff, not_and]
    omega
  · by_cases hb : b.isZero = true
    · have hlt := hfits a (by
        rw [difference, coefficient_eq_zero hb, Int.zero_mul, Int.sub_zero])
      simp only [ha, hzero, hb, if_true, if_false, reduceCtorEq, false_iff, not_and]
      omega
    · have hsum : a.coefficient * tenPow (max a.scale b.scale - a.scale) +
          b.neg.coefficient * tenPow (max a.scale b.scale - b.scale) = a.difference b := by
        rw [coefficient_neg, difference, Int.neg_mul, Int.sub_eq_add_neg]
      simp only [ha, hzero, hb, hscale, hsum]
      cases hfit : fit (decide (a.difference b < 0)) (a.difference b).natAbs
          (max a.scale b.scale) with
      | none => simp [Fault.orElse, fit_eq_none_iff.mp hfit, eq_comm]
      | some d =>
        have hlt : ¬ coefficientLimit ≤ halfEven (a.difference b).natAbs (max a.scale b.scale) := by
          intro hleaves
          rw [fit_eq_none_iff.mpr hleaves] at hfit
          cases hfit
        simp [Fault.orElse, hlt]

/-- Numbers that are not negative can be taken from each other. -/
theorem sub_isOk_of_nonneg {a b : Decimal} (ha : zero ≤ a) (hb : zero ≤ b) :
    ∃ d, a.sub b = .ok d := by
  have hnonneg : ∀ {d : Decimal}, zero ≤ d → 0 ≤ d.coefficient := by
    intro d hd
    have hd : (0 : Int) * tenPow d.scale ≤ d.coefficient * tenPow 0 := hd
    have hone : tenPow 0 = 1 := rfl
    rw [hone] at hd
    omega
  cases hsub : a.sub b with
  | ok d => exact ⟨d, rfl⟩
  | error fault =>
    have hleaves := (sub_eq_error_iff.mp hsub).2
    have hbound : (a.difference b).natAbs ≤
        (coefficientLimit - 1) * tenPow (max a.scale b.scale) := by
      have hA := natAbs_coefficient_mul a (max a.scale b.scale - a.scale)
      have hB := natAbs_coefficient_mul b (max a.scale b.scale - b.scale)
      have hA' := a.magnitude_mul_le (max a.scale b.scale)
      have hB' := b.magnitude_mul_le (max a.scale b.scale)
      have hA₀ : 0 ≤ a.coefficient * (tenPow (max a.scale b.scale - a.scale) : Int) :=
        Int.mul_nonneg (hnonneg ha) (Int.natCast_nonneg _)
      have hB₀ : 0 ≤ b.coefficient * (tenPow (max a.scale b.scale - b.scale) : Int) :=
        Int.mul_nonneg (hnonneg hb) (Int.natCast_nonneg _)
      unfold difference
      omega
    have := halfEven_le_of_le_mul hbound
    have : 0 < coefficientLimit := by decide
    omega

end SpotGateway.Decimal
