import SpotGateway.Proofs.Binary64.Rounding
import SpotGateway.Proofs.Binary64.Text
import SpotGateway.Proofs.Json.Literal

/-!
# Floating-point values of literals

* `Literal.finite_of_float?` — they are finite;
* `Literal.number?_cases`, `Literal.IsWord` — the whole numbers that are kept as they are;
* `Literal.Short`, `Literal.written_of_short` — literals of at most 15 digits and a small power of
  ten have a value whose shortest digits are theirs.
-/

set_option autoImplicit false

namespace SpotGateway.Json.Literal

open Binary64 (ofNat?)

variable {l : Literal}

theorem finite_of_scale {fuel : Nat} {x y : Binary64} {e : Int} (hx : x.Finite)
    (h : scale fuel x e = some y) : y.Finite := by
  induction fuel generalizing x e with
  | zero =>
    cases h
    exact hx
  | succ fuel ih =>
    unfold scale at h
    split at h
    · obtain ⟨factor, hfactor, h⟩ := Option.bind_eq_some_iff.mp h
      split at h
      · exact Binary64.finite_of_mul? h
      · exact Binary64.finite_of_div?
          (Binary64.significand_ne_zero_of_ofNat? (tenPow_pos _) hfactor) h
    · split at h
      · cases h
        exact hx
      · split at h
        · cases h
        · obtain ⟨factor, hfactor, h⟩ := Option.bind_eq_some_iff.mp h
          obtain ⟨quotient, hquotient, h⟩ := Option.bind_eq_some_iff.mp h
          exact ih (Binary64.finite_of_div?
            (Binary64.significand_ne_zero_of_ofNat? (tenPow_pos _) hfactor) hquotient) h

theorem finite_of_float? {x : Binary64} (h : l.float? = some x) : x.Finite := by
  unfold float? at h
  obtain ⟨word, hword, h⟩ := Option.bind_eq_some_iff.mp h
  obtain ⟨y, hy, h⟩ := Option.bind_eq_some_iff.mp h
  have hfinite := finite_of_scale (Binary64.finite_of_ofNat? hword) hy
  cases h
  split
  · exact ⟨hfinite.significand_lt, hfinite.exponent_ge, hfinite.exponent_le, hfinite.full⟩
  · exact hfinite

/-! ## Values -/

theorem value_of_isWhole (h : l.isWhole = true) :
    l.value = signOf l.negative * Text.valueOf l.whole := by
  rw [isWhole, Bool.and_eq_true, Option.isNone_iff_eq_none, Option.isNone_iff_eq_none] at h
  simp [value, base, power, digits, places, h.1, h.2]

/-- Whole numbers of 64 bits are values as they are; others become floating-point numbers. -/
theorem number?_cases {n : Number} (h : l.number? = some n) :
    (∃ k < word64, n = .natural k ∧ l.value = k) ∨
      (∃ k < word64, 0 < k ∧ n = .negative (-(k : Int)) ∧ l.value = -k) ∨
      ∃ x, n = .float x ∧ l.float? = some x := by
  unfold number? at h
  simp only at h
  split at h
  · rename_i hnatural
    cases h
    refine .inl ⟨_, hnatural.2.2, rfl, ?_⟩
    rw [value_of_isWhole hnatural.1, hnatural.2.1]
    simp [signOf]
  · split at h
    · rename_i hnegative
      cases h
      have hword : word63 < word64 := by decide
      refine .inr (.inl ⟨_, Nat.lt_of_le_of_lt hnegative.2.2.2 hword, hnegative.2.2.1, rfl, ?_⟩)
      rw [value_of_isWhole hnegative.1, hnegative.2.1]
      simp [signOf]
    · obtain ⟨x, hx, rfl⟩ := Option.map_eq_some_iff.mp h
      exact .inr (.inr ⟨x, rfl, hx⟩)

theorem number?_isSome {x : Binary64} (h : l.float? = some x) : ∃ n, l.number? = some n := by
  unfold number?
  simp only
  split
  · exact ⟨_, rfl⟩
  · split
    · exact ⟨_, rfl⟩
    · exact ⟨_, by rw [h]; rfl⟩

/-- A whole number that 64 bits hold, with a sign or without. -/
def IsWord (l : Literal) : Prop :=
  l.isWhole = true ∧ (l.negative = false ∧ Text.valueOf l.whole < word64 ∨
    l.negative = true ∧ 0 < Text.valueOf l.whole ∧ Text.valueOf l.whole ≤ word63)

theorem number?_of_isWord (h : l.IsWord) : ∃ n, l.number? = some n ∧ ∀ x, n ≠ .float x := by
  unfold number?
  simp only
  split
  · exact ⟨_, rfl, fun _ h => by cases h⟩
  · rename_i hnatural
    obtain ⟨hwhole, hsign | hsign⟩ := h
    · exact absurd ⟨hwhole, hsign⟩ hnatural
    · rw [if_pos ⟨hwhole, hsign⟩]
      exact ⟨_, rfl, fun _ h => by cases h⟩

/-! ## Few digits -/

/-- At most 15 digits and a power of ten of at most 22 in absolute value. -/
def Short (l : Literal) : Prop :=
  Text.valueOf l.digits < 10 ^ 15 ∧ (l.power - l.places).natAbs ≤ 22

theorem le_foldl (word : Nat) (ds : List Nat) : word ≤ ds.foldl (fun n d => n * 10 + d) word := by
  induction ds generalizing word with
  | nil => exact Nat.le_refl _
  | cons d ds ih => exact Nat.le_trans (by omega) (ih (word * 10 + d))

theorem fill_eq {word : Nat} {ds : List Nat}
    (h : ds.foldl (fun n d => n * 10 + d) word < word64) :
    fill word ds = (ds.foldl (fun n d => n * 10 + d) word, ds.length) := by
  induction ds generalizing word with
  | nil => rfl
  | cons d ds ih =>
    have hfits : word * 10 + d < word64 := Nat.lt_of_le_of_lt (le_foldl _ ds) h
    rw [fill, if_pos hfits, ih h]
    rfl

/-- Digits that fit a word are all taken. -/
theorem scaled_eq (h : Text.valueOf l.digits < word64) :
    l.scaled = (Text.valueOf l.digits, -(l.places : Int)) := by
  unfold Text.valueOf digits at *
  rw [List.foldl_append] at *
  have hwhole := fill_eq (Nat.lt_of_le_of_lt (le_foldl _ _) h)
  unfold scaled places
  simp only [hwhole, Nat.sub_self]
  cases hf : l.fraction with
  | none => simp
  | some ds =>
    rw [hf] at h
    have hfraction : fill _ ds = _ := fill_eq h
    simp [hfraction]

/-- Small powers of ten are floating-point numbers. -/
theorem ofNat?_tenPow {k : Nat} (hk : k ≤ 22) :
    ∃ x, ofNat? (tenPow k) = some x ∧ x.negative = false ∧ x.magnitude = 10 ^ k := by
  have hfive : 5 ^ k < 2 ^ Binary64.precision :=
    Nat.lt_of_le_of_lt (Nat.pow_le_pow_right (by decide) hk) (by decide)
  obtain ⟨x, hx, hsign, hvalue⟩ := Binary64.ofNat?_exact hfive (Nat.le_trans hk (by decide))
  rw [← Nat.mul_pow] at hx
  refine ⟨x, hx, hsign, ?_⟩
  rw [hvalue]
  push_cast
  rw [← mul_pow]
  norm_num

/-- A small power of ten is taken with one rounding. -/
theorem scale_of_small {x : Binary64} {e : Int} (hx : x.significand ≠ 0)
    (hsign : x.negative = false) (hlt : x.magnitude < 10 ^ 15) (he : e.natAbs ≤ 22) :
    ∃ y, scale 4 x e = some y ∧ y.negative = false ∧ y.Finite ∧
      y.Encloses (x.magnitude * 10 ^ e) := by
  obtain ⟨factor, hfactor, hsign', hvalue⟩ := ofNat?_tenPow he
  have hfactor' := Binary64.significand_ne_zero_of_ofNat? (tenPow_pos _) hfactor
  have hscale : scale 4 x e = if 0 ≤ e then x.mul? factor else x.div? factor := by
    rw [scale, if_pos (by omega), hfactor]
    rfl
  have hpos := Binary64.magnitude_pos hx
  have hpower : (10 : ℚ) ^ e.natAbs ≤ 10 ^ 22 := pow_le_pow_right₀ (by norm_num) he
  have hone : (1 : ℚ) ≤ 10 ^ e.natAbs := one_le_pow₀ (by norm_num)
  rw [hscale]
  by_cases hneg : 0 ≤ e
  · have hbound : x.magnitude * factor.magnitude < 2 ^ 200 := by
      rw [hvalue]
      calc x.magnitude * 10 ^ e.natAbs ≤ x.magnitude * 10 ^ 22 :=
            mul_le_mul_of_nonneg_left hpower hpos.le
        _ < 2 ^ 200 := by linarith
    obtain ⟨y, hy, hysign, hfinite, hencloses⟩ := Binary64.mul?_spec hx hfactor' hbound
    rw [if_pos hneg]
    refine ⟨y, hy, by rw [hysign, hsign, hsign']; rfl, hfinite, ?_⟩
    rw [hvalue, ← zpow_natCast, Int.natAbs_of_nonneg hneg] at hencloses
    exact hencloses
  · have hbound : x.magnitude / factor.magnitude < 2 ^ 200 := by
      rw [hvalue]
      calc x.magnitude / 10 ^ e.natAbs ≤ x.magnitude := div_le_self hpos.le hone
        _ < 2 ^ 200 := by linarith
    obtain ⟨y, hy, hysign, hfinite, hencloses⟩ := Binary64.div?_spec hx hfactor' hbound
    rw [if_neg hneg]
    refine ⟨y, hy, by rw [hysign, hsign, hsign']; rfl, hfinite, ?_⟩
    rw [hvalue, div_eq_mul_inv, ← zpow_natCast, ← zpow_neg,
      show -(e.natAbs : Int) = e by omega] at hencloses
    exact hencloses

theorem scale_of_zero (e : Int) (he : e.natAbs ≤ 22) :
    scale 4 (Binary64.zero false) e = some (Binary64.zero false) := by
  obtain ⟨factor, hfactor, hsign, -⟩ := ofNat?_tenPow he
  rw [scale, if_pos (by omega), hfactor]
  show (if 0 ≤ e then (Binary64.zero false).mul? factor else (Binary64.zero false).div? factor) = _
  rw [Binary64.zero_mul?, Binary64.zero_div?, hsign, ite_self]
  rfl

theorem written_of_sign {x : Binary64} (h : x.negative = false) (negative : Bool) :
    (if negative then x.neg else x).written = signOf negative * x.written := by
  cases negative with
  | true =>
    have hneg : x.neg.written =
        if x.isZero then 0 else signOf (!x.negative) * (x.shortest.1 * 10 ^ x.shortest.2) := rfl
    rw [if_pos rfl, hneg, Binary64.written, h]
    split <;> simp [signOf]
  | false => simp [signOf]

/-- At most 15 digits, scaled by a small power of ten, are the shortest ones. -/
theorem written_of_scale {word : Nat} {e : Int} (hdigits : word < 10 ^ 15) (he : e.natAbs ≤ 22) :
    ∃ x y, ofNat? word = some x ∧ scale 4 x e = some y ∧ y.negative = false ∧
      y.written = word * 10 ^ e := by
  obtain ⟨x, hx, hsign, hmagnitude⟩ := Binary64.ofNat?_exact (j := 0)
    (Nat.lt_trans hdigits (by decide)) (by decide)
  rw [pow_zero, Nat.mul_one] at hx
  rw [pow_zero, mul_one] at hmagnitude
  refine ⟨x, ?_⟩
  rcases Nat.eq_zero_or_pos word with rfl | hpos
  · obtain rfl : Binary64.zero false = x := Option.some.inj hx
    refine ⟨_, hx, scale_of_zero _ he, rfl, ?_⟩
    rw [Nat.cast_zero, zero_mul]
    rfl
  · have hx0 := Binary64.significand_ne_zero_of_ofNat? hpos hx
    obtain ⟨y, hy, hysign, hfinite, hencloses⟩ := scale_of_small hx0 hsign
      (hmagnitude.symm ▸ by exact_mod_cast hdigits) he
    rw [hmagnitude] at hencloses
    have hlarge : (2 : ℚ) ^ (-100 : Int) ≤ word * 10 ^ e :=
      calc (2 : ℚ) ^ (-100 : Int) ≤ 10 ^ (-22 : Int) := by norm_num
        _ ≤ 10 ^ e := zpow_le_zpow_right₀ (by norm_num) (by omega)
        _ ≤ word * 10 ^ e := le_mul_of_one_le_left (ten_zpow_pos _).le (by exact_mod_cast hpos)
    have hfull := Binary64.full_of_encloses hfinite hencloses hlarge
    have hnonzero : ¬ y.isZero = true := by
      intro hzero
      have : y.significand = 0 := eq_of_beq hzero
      omega
    refine ⟨y, hx, hy, hysign, ?_⟩
    rw [Binary64.written, if_neg hnonzero, hysign,
      Binary64.shortest_of_encloses hfinite hfull hdigits hencloses]
    simp [signOf]

/-- **A literal of at most 15 digits and a small power of ten has a value whose shortest digits are
its own.** -/
theorem written_of_short (h : l.Short) : ∃ x, l.float? = some x ∧ x.written = l.value := by
  obtain ⟨hdigits, hpower⟩ := h
  have hvalue : l.value =
      signOf l.negative * (Text.valueOf l.digits * 10 ^ (l.power - l.places)) := by
    rw [value, base, zpow_sub₀ (by norm_num), zpow_natCast]
    field_simp
  have hword : 10 ^ 15 < word64 := by decide
  have hscaled := scaled_eq (Nat.lt_trans hdigits hword)
  have he : -(l.places : Int) + l.power = l.power - l.places := by omega
  obtain ⟨x, y, hx, hy, hysign, hwritten⟩ := written_of_scale hdigits hpower
  refine ⟨if l.negative then y.neg else y, ?_, ?_⟩
  · rw [float?, hscaled]
    show (do
      let x ← scale 4 (← ofNat? (Text.valueOf l.digits)) (-(l.places : Int) + l.power)
      return if l.negative then x.neg else x) = _
    rw [hx, he]
    show (do
      let x ← scale 4 x (l.power - l.places)
      return if l.negative then x.neg else x) = _
    rw [hy]
    rfl
  · rw [written_of_sign hysign, hwritten, hvalue]

end SpotGateway.Json.Literal
