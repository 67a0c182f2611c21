import SpotGateway.Proofs.Decimal.Nearest

/-!
# Products of decimals

The product of two decimals is the decimal nearest to their exact product, and faults exactly if
there is none.

* `Decimal.halfEven_near` — cutting digits off rounds to the nearest number that is left;
* `Decimal.nearest_of_fit`, `Decimal.overflows_of_fit` — cutting off as few digits as possible;
* `Decimal.computes_mul` — products.
-/

set_option autoImplicit false

namespace SpotGateway.Decimal

open Binary64 (IsNearest)

theorem halfEven_near (n k : Nat) : IsNearest (halfEven n k) (n / 10 ^ k) := by
  have := Binary64.nearestEven_near (n := n) (tenPow_pos k)
  rwa [cast_tenPow] at this

/-- The whole part does not fit exactly if the number overflows. -/
theorem limit_le_halfEven_iff {n k : Nat} :
    coefficientLimit ≤ halfEven n k ↔ (coefficientLimit : ℚ) - 1 / 2 ≤ n / 10 ^ k :=
  (halfEven_near n k).even_le_iff coefficientLimit_even

section

variable {negative : Bool} {n scale : Nat}

theorem nearest_of_fit {d : Decimal} (h : fit negative n scale = some d) :
    Nearest (signOf negative * (n / 10 ^ scale)) d.value := by
  unfold fit at h
  split at h
  · rename_i k hfind
    obtain ⟨hfits, hmem, hbefore⟩ := List.find?_range_eq_some.mp hfind
    have hk : k ≤ scale := Nat.le_of_lt_succ (List.mem_range.mp hmem)
    simp only [fitsAfter, Bool.and_eq_true, decide_eq_true_eq] at hfits
    have hvalue : d.value = signOf negative * (halfEven n k / 10 ^ (scale - k)) := by
      rw [value_of_signed? h, mul_div_assoc]
    cases k with
    | zero =>
      -- nothing is cut off
      have hall : halfEven n 0 = n := by
        have := halfEven_near n 0
        rw [pow_zero, div_one] at this
        exact this.eq_of_natCast
      rw [hall, Nat.sub_zero] at hvalue
      rw [← hvalue]
      exact .of_holds ⟨d, rfl⟩
    | succ j =>
      have hunits : (n : ℚ) / 10 ^ scale * 10 ^ (scale - (j + 1)) = n / 10 ^ (j + 1) := by
        obtain ⟨i, rfl⟩ := Nat.exists_eq_add_of_le hk
        rw [Nat.add_sub_cancel_left, pow_add]
        field_simp
      rw [hvalue]
      refine (Nearest.of_nonneg (by positivity) ⟨hfits.1, hfits.2, ?_, ?_⟩).signOf_mul
        (by positivity) negative
      · rw [hunits]
        exact halfEven_near n (j + 1)
      · -- with one digit less cut off, the scale or the magnitude is too large
        have hnot := hbefore j (Nat.lt_succ_self j)
        simp only [fitsAfter, Bool.not_eq_true', Bool.and_eq_false_iff, decide_eq_false_iff_not]
          at hnot
        rcases hnot with hscale | hlarge
        · left
          omega
        · right
          rw [pow_succ, ← mul_assoc, hunits, pow_succ]
          have := limit_le_halfEven_iff.mp (Nat.le_of_not_lt hlarge)
          calc (coefficientLimit : ℚ) - 1 / 2 ≤ n / 10 ^ j := this
            _ = n / (10 ^ j * 10) * 10 := by field_simp
  · cases h

theorem overflows_of_fit (h : fit negative n scale = none) :
    Overflows (signOf negative * (n / 10 ^ scale)) := by
  unfold Overflows
  rw [abs_mul, abs_signOf, one_mul, abs_of_nonneg (by positivity)]
  exact limit_le_halfEven_iff.mp (fit_eq_none_iff.mp h)

end

theorem value_unsignedZero (d : Decimal) : d.unsignedZero.value = d.value := by
  have hscale : d.unsignedZero.scale = d.scale := by
    unfold unsignedZero
    split <;> rfl
  rw [value, coefficient_unsignedZero, hscale, value]

theorem signOf_bne (m n : Bool) : signOf (m != n) = signOf m * signOf n := by
  cases m <;> cases n <;> norm_num [signOf]

/-- A number far behind the last digit is rounded to zero. -/
theorem nearest_zero {q : ℚ} (hq : 0 ≤ q) (h : q * 10 ^ maxScale < 1 / 2) : Nearest q 0 := by
  have := Nearest.of_nonneg hq (m := 0) ⟨Nat.le_refl _, by decide, .of_abs_lt ?_ ?_, .inl rfl⟩
  · rwa [Nat.cast_zero, zero_div] at this
  · have : 0 ≤ q * 10 ^ maxScale := by positivity
    rw [Nat.cast_zero]
    linarith
  · rw [Nat.cast_zero]
    linarith

/-- **The product is the decimal nearest to the exact product.** -/
theorem computes_mul (a b : Decimal) : Computes (a.value * b.value) (a.mul b) := by
  have hexact : a.value * b.value = signOf (a.negative != b.negative) *
      ((a.magnitude * b.magnitude : Nat) / 10 ^ (a.scale + b.scale)) := by
    rw [a.value_eq, b.value_eq, signOf_bne, pow_add]
    push_cast
    field_simp
  unfold mul
  by_cases hzero : a.isZero = true ∨ b.isZero = true
  · have hvalue : a.value * b.value = zero.value := by
      rw [value_zero, mul_eq_zero]
      exact hzero.imp value_eq_zero_iff.mpr value_eq_zero_iff.mpr
    simp only [Bool.or_eq_true, hzero, if_true, hvalue]
    exact Nearest.of_holds ⟨zero, rfl⟩
  · simp only [Bool.or_eq_true, hzero, if_false]
    rw [hexact]
    split
    · rename_i hsmall
      split
      · rename_i hscale
        -- a product of two words is less than half a unit of the last place
        have hproduct : ((a.magnitude * b.magnitude : Nat) : ℚ) * 2 < 10 ^ 20 := by
          have hle : a.magnitude * b.magnitude * 2 ≤ word32 * word32 * 2 :=
            Nat.mul_le_mul_right 2 (Nat.mul_le_mul hsmall.1.le hsmall.2.le)
          exact_mod_cast hle.trans_lt (by decide)
        have hlt : ((a.magnitude * b.magnitude : Nat) : ℚ) / 10 ^ (a.scale + b.scale) *
            10 ^ maxScale < 1 / 2 := by
          obtain ⟨j, hj⟩ : ∃ j, a.scale + b.scale = maxScale + 20 + j :=
            Nat.exists_eq_add_of_le hscale
          calc ((a.magnitude * b.magnitude : Nat) : ℚ) / 10 ^ (a.scale + b.scale) * 10 ^ maxScale
              = (a.magnitude * b.magnitude : Nat) / 10 ^ 20 / 10 ^ j := by
                rw [hj, pow_add, pow_add]
                field_simp
            _ ≤ (a.magnitude * b.magnitude : Nat) / 10 ^ 20 :=
                div_le_self (by positivity) (one_le_pow₀ (by norm_num))
            _ < 1 / 2 := by
                rw [div_lt_div_iff₀ (by positivity) two_pos]
                linarith
        have := (nearest_zero (by positivity) hlt).signOf_mul (by positivity)
          (a.negative != b.negative)
        rw [mul_zero, ← value_zero] at this
        exact this
      · refine Computes.of_orElse (fun d hd => ?_) fun hnone => ?_
        · obtain ⟨d', hfit, rfl⟩ := Option.map_eq_some_iff.mp hd
          rw [value_unsignedZero]
          exact nearest_of_fit hfit
        · exact overflows_of_fit (Option.map_eq_none_iff.mp hnone)
    · exact Computes.of_orElse (fun d => nearest_of_fit) overflows_of_fit

end SpotGateway.Decimal
