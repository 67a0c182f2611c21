import SpotGateway.Proofs.Binary64.Rounding
import SpotGateway.Proofs.Binary64.Shortest

/-!
# Errors of floating-point arithmetic

How far a rounded result is from the exact one, in proportion to it.

* `Near` — numbers that differ by a given part of the second, with one rule for each operation;
* `Binary64.Rounds`, `Binary64.Rounds.near` — a number of full precision that another one is rounded
  to, and what the rounding costs;
* `Binary64.ofNat?_rounds`, `Binary64.mul?_rounds`, `Binary64.div?_rounds`,
  `Binary64.addMagnitudes?_rounds` — each operation rounds once;
* `Binary64.roundWhole?_spec` — the nearest whole number;
* `Binary64.Rounds.shortest_near` — the shortest digits.
-/

set_option autoImplicit false

namespace SpotGateway

/-! ## Proportional errors -/

/-- The error of an error. -/
def compound (ε δ : ℚ) : ℚ := ε + δ + ε * δ

theorem compound_nonneg {ε δ : ℚ} (hε : 0 ≤ ε) (hδ : 0 ≤ δ) : 0 ≤ compound ε δ := by
  unfold compound
  positivity

/-- The numbers differ by at most the given part of the second. -/
def Near (ε a b : ℚ) : Prop := |a - b| ≤ ε * b

namespace Near

variable {ε δ a b c d : ℚ}

theorem refl (b : ℚ) : Near 0 b b := by
  simp [Near]

theorem mono (h : Near ε a b) (hle : ε ≤ δ) (hb : 0 ≤ b) : Near δ a b :=
  le_trans h (mul_le_mul_of_nonneg_right hle hb)

theorem le (h : Near ε a b) : a ≤ (1 + ε) * b := by
  have := (abs_le.mp h).2
  linarith

theorem ge (h : Near ε a b) : (1 - ε) * b ≤ a := by
  have := (abs_le.mp h).1
  linarith

theorem trans (hε : 0 ≤ ε) (h : Near ε a b) (h' : Near δ b c) : Near (compound ε δ) a c := by
  have hb := mul_le_mul_of_nonneg_left h'.le hε
  calc |a - c| ≤ |a - b| + |b - c| := abs_sub_le a b c
    _ ≤ ε * ((1 + δ) * c) + δ * c := add_le_add (le_trans h hb) h'
    _ = compound ε δ * c := by unfold compound; ring

theorem add (h : Near ε a b) (h' : Near ε c d) : Near ε (a + c) (b + d) := by
  calc |a + c - (b + d)| = |a - b + (c - d)| := by congr 1; ring
    _ ≤ |a - b| + |c - d| := abs_add_le _ _
    _ ≤ ε * b + ε * d := add_le_add h h'
    _ = ε * (b + d) := by ring

theorem mul_const (h : Near ε a b) {k : ℚ} (hk : 0 ≤ k) : Near ε (a * k) (b * k) := by
  rw [Near, ← sub_mul, abs_mul, abs_of_nonneg hk, ← mul_assoc]
  exact mul_le_mul_of_nonneg_right h hk

theorem mul (h : Near ε a b) (h' : Near δ c d) (hε : 0 ≤ ε) (hb : 0 ≤ b) (hc : 0 ≤ c) :
    Near (compound ε δ) (a * c) (b * d) := by
  have hfirst : Near ε (a * c) (b * c) := h.mul_const hc
  have hsecond : Near δ (b * c) (b * d) := by
    rw [mul_comm b c, mul_comm b d]
    exact h'.mul_const hb
  exact hfirst.trans hε hsecond

/-- The reciprocal of a number that is near to another one. -/
theorem inv (h : Near δ c d) (hd : 0 < d) (hδ : δ < 1) : Near (δ / (1 - δ)) c⁻¹ d⁻¹ := by
  have hgap : 0 < 1 - δ := by linarith
  have hc : 0 < c := lt_of_lt_of_le (mul_pos hgap hd) h.ge
  have hcd : |c⁻¹ - d⁻¹| = |c - d| / (c * d) := by
    rw [inv_sub_inv hc.ne' hd.ne', abs_div, abs_sub_comm, abs_of_pos (mul_pos hc hd)]
  rw [Near, hcd, div_le_iff₀ (mul_pos hc hd)]
  have hbound : |c - d| * (1 - δ) ≤ δ * c := by
    have hδ0 : 0 ≤ δ := by
      by_contra hneg
      have := mul_neg_of_neg_of_pos (not_le.mp hneg) hd
      have := abs_nonneg (c - d)
      have := show |c - d| ≤ δ * d from h
      linarith
    have := mul_le_mul_of_nonneg_left h.ge hδ0
    have := mul_le_mul_of_nonneg_right (show |c - d| ≤ δ * d from h) hgap.le
    linarith
  rw [← le_div_iff₀ hgap] at hbound
  calc |c - d| ≤ δ * c / (1 - δ) := hbound
    _ = δ / (1 - δ) * d⁻¹ * (c * d) := by field_simp

end Near

namespace Binary64

variable {x y : Binary64} {q : ℚ}

/-- The part of a number that is lost at most when it is rounded. -/
def roundoff : ℚ := 1 / (2 ^ precision - 1)

theorem roundoff_nonneg : 0 ≤ roundoff := by
  norm_num [roundoff, precision]

/-- Numbers that are neither too small nor too large to be rounded with full precision. -/
def InRange (q : ℚ) : Prop := 2 ^ (-100 : Int) ≤ q ∧ q < 2 ^ 200

/-- The number has full precision, and the other one is rounded to it. -/
structure Rounds (x : Binary64) (q : ℚ) : Prop where
  finite : x.Finite
  full : 2 ^ 52 ≤ x.significand
  encloses : x.Encloses q

namespace Rounds

theorem significand_ne_zero (h : x.Rounds q) : x.significand ≠ 0 := by
  have := h.full
  omega

theorem isZero (h : x.Rounds q) : ¬ x.isZero = true :=
  fun hzero => h.significand_ne_zero (eq_of_beq hzero)

/-- What one rounding costs. -/
theorem near (h : x.Rounds q) : Near roundoff x.magnitude q := by
  have hsize := magnitude_ge_quarters h.full
  obtain ⟨hlow, hhigh⟩ := abs_le.mp h.encloses.abs_sub_le
  rw [Near, roundoff, precision, abs_le]
  norm_num
  constructor <;> linarith

end Rounds

theorem rounds_of_encloses (hx : x.Finite) (h : x.Encloses q) (hq : InRange q) : x.Rounds q :=
  ⟨hx, full_of_encloses hx h hq.1, h⟩

theorem magnitude_zero (negative : Bool) : (zero negative).magnitude = 0 := by
  simp [magnitude, zero]

/-- A ratio is rounded once. -/
theorem ofRatio?_rounds (negative : Bool) {n d : Nat} (hn : 0 < n) (hd : 0 < d)
    (hq : InRange ((n : ℚ) / d)) :
    ∃ x, ofRatio? negative n d = some x ∧ x.negative = negative ∧ x.Rounds (n / d) := by
  obtain ⟨x, hx⟩ := ofRatio?_isSome negative hn hd hq.2
  obtain ⟨hsign, hfinite, hencloses⟩ := encloses_of_ofRatio? hn hd hx
  exact ⟨x, hx, hsign, rounds_of_encloses hfinite hencloses hq⟩

theorem ofNat?_rounds {n : Nat} (hn : 0 < n) (hlt : (n : ℚ) < 2 ^ 200) :
    ∃ x, ofNat? n = some x ∧ x.negative = false ∧ x.Rounds n := by
  have hone : (1 : ℚ) ≤ n := by exact_mod_cast hn
  have hq : InRange ((n : ℚ) / (1 : Nat)) := by
    rw [Nat.cast_one, div_one]
    exact ⟨le_trans (zpow_le_one_of_nonpos₀ one_le_two (by decide)) hone, hlt⟩
  have hrounds := ofRatio?_rounds false hn Nat.one_pos hq
  rwa [Nat.cast_one, div_one] at hrounds

theorem mul?_rounds (hx : x.significand ≠ 0) (hy : y.significand ≠ 0)
    (hq : InRange (x.magnitude * y.magnitude)) : ∃ z, x.mul? y = some z ∧
      z.negative = (x.negative != y.negative) ∧ z.Rounds (x.magnitude * y.magnitude) := by
  obtain ⟨z, hz, hsign, hfinite, hencloses⟩ := mul?_spec hx hy hq.2
  exact ⟨z, hz, hsign, rounds_of_encloses hfinite hencloses hq⟩

theorem div?_rounds (hx : x.significand ≠ 0) (hy : y.significand ≠ 0)
    (hq : InRange (x.magnitude / y.magnitude)) : ∃ z, x.div? y = some z ∧
      z.negative = (x.negative != y.negative) ∧ z.Rounds (x.magnitude / y.magnitude) := by
  obtain ⟨z, hz, hsign, hfinite, hencloses⟩ := div?_spec hx hy hq.2
  exact ⟨z, hz, hsign, rounds_of_encloses hfinite hencloses hq⟩

theorem addMagnitudes?_rounds (x : Binary64) (hy : y.significand ≠ 0)
    (hq : InRange (x.magnitude + y.magnitude)) : ∃ z, x.addMagnitudes? y = some z ∧
      z.negative = x.negative ∧ z.Rounds (x.magnitude + y.magnitude) := by
  have hxd := x.denominator_pos
  have hyd := y.denominator_pos
  have hn : 0 < x.numerator * y.denominator + y.numerator * x.denominator :=
    Nat.add_pos_right _ (Nat.mul_pos (numerator_pos hy) hxd)
  have hvalue : x.magnitude + y.magnitude =
      (x.numerator * y.denominator + y.numerator * x.denominator : Nat) /
        (x.denominator * y.denominator : Nat) := by
    rw [magnitude_eq_div x, magnitude_eq_div y, div_add_div _ _ (by exact_mod_cast hxd.ne')
      (by exact_mod_cast hyd.ne')]
    push_cast
    ring
  rw [hvalue] at hq ⊢
  exact ofRatio?_rounds x.negative hn (Nat.mul_pos hxd hyd) hq

/-- The nearest whole number, a half going up. -/
theorem roundWhole?_spec (hsign : x.negative = false) : ∃ n : Nat, x.roundWhole? = ofNat? n ∧
    (n : ℚ) ≤ x.magnitude + 1 / 2 ∧ x.magnitude + 1 / 2 < n + 1 := by
  have hd := x.denominator_pos
  have hd' : (0 : ℚ) < x.denominator := by exact_mod_cast hd
  refine ⟨(2 * x.numerator + x.denominator) / (2 * x.denominator), ?_, ?_, ?_⟩
  · rw [roundWhole?, hsign, ofNat?]
  · have h := Nat.div_mul_le_self (2 * x.numerator + x.denominator) (2 * x.denominator)
    have h : ((((2 * x.numerator + x.denominator) / (2 * x.denominator) : Nat) : ℚ)) *
        (2 * x.denominator) ≤ 2 * x.numerator + x.denominator := by exact_mod_cast h
    rw [← le_div_iff₀ (by positivity)] at h
    refine h.trans_eq ?_
    rw [magnitude_eq_div]
    field_simp
  · have h := Nat.lt_div_mul_add (a := 2 * x.numerator + x.denominator)
      (Nat.mul_pos Nat.two_pos hd)
    have h : (2 * x.numerator + x.denominator : ℚ) <
        (((2 * x.numerator + x.denominator) / (2 * x.denominator) : Nat) : ℚ) *
          (2 * x.denominator) + 2 * x.denominator := by exact_mod_cast h
    rw [magnitude_eq_div]
    have hsum : (x.numerator : ℚ) / x.denominator + 1 / 2 =
        (2 * x.numerator + x.denominator) / (2 * x.denominator) := by field_simp
    rw [hsum, div_lt_iff₀ (by positivity)]
    linarith

/-! ## Digits -/

/-- The shortest digits round to the number. -/
theorem encloses_shortest (hx : x.Finite) (hfull : 2 ^ 52 ≤ x.significand) :
    x.Encloses (x.shortest.1 * 10 ^ x.shortest.2) := by
  have h : x.significand ≠ 0 := by omega
  obtain ⟨k, c, -, hhit, -, hshortest⟩ := shortest_spec hx h
  obtain ⟨hencloses, -⟩ := hitAt_eq_some h hhit
  have hc : c ≠ 0 := by
    rintro rfl
    have hsize := magnitude_ge_quarters hfull
    have hquarter := x.quarter_pos
    obtain ⟨hlow, -⟩ := abs_le.mp hencloses.abs_sub_le
    rw [Nat.cast_zero, zero_mul] at hlow
    linarith
  obtain ⟨-, -, -, hvalue⟩ := dropZeros_spec 17 (x.point - (k + 1 : Nat)) hc
  rw [hshortest, hvalue]
  exact hencloses

/-- The number that the shortest digits stand for is near to the floating-point number. -/
theorem Rounds.shortest_near (h : x.Rounds q) :
    Near roundoff (x.shortest.1 * 10 ^ x.shortest.2) x.magnitude := by
  have hsize := magnitude_ge_quarters h.full
  have hquarter := x.quarter_pos
  refine le_trans (encloses_shortest h.finite h.full).abs_sub_le ?_
  rw [roundoff, precision]
  norm_num
  linarith

end Binary64

end SpotGateway
