import SpotGateway.Proofs.Binary64.Value

/-!
# Rounding to floating-point numbers

What a ratio is rounded to has the ratio in its rounding interval, and ratios that are a
floating-point number themselves stay as they are.

* `Binary64.nearestEven_near` — rounding to whole numbers;
* `Binary64.exponentOf_spec` — the exponent of full precision;
* `Binary64.encloses_of_ofRatio?` — rounding of a ratio, and `Binary64.ofRatio?_isSome`;
* `Binary64.ofNat?_exact` — whole numbers of 53 bits before their trailing zeros;
* `Binary64.mul?_spec`, `Binary64.div?_spec` — products and quotients.
-/

set_option autoImplicit false

namespace SpotGateway.Binary64

/-! ## To whole numbers -/

/-- The whole number `m` is the nearest to `q`, or one of two of which it is the even one. -/
def IsNearest (m : Nat) (q : ℚ) : Prop :=
  ((m : ℚ) - 1 / 2 < q ∨ m % 2 = 0 ∧ q = m - 1 / 2) ∧
    (q < m + 1 / 2 ∨ m % 2 = 0 ∧ q = m + 1 / 2)

theorem IsNearest.eq_of_natCast {m k : Nat} (h : IsNearest m k) : m = k := by
  have hlow : (m : ℚ) - 1 / 2 ≤ k := h.1.elim le_of_lt fun h => h.2.ge
  have hhigh : (k : ℚ) ≤ m + 1 / 2 := h.2.elim le_of_lt fun h => h.2.le
  have hle : m ≤ k := by
    by_contra hlt
    have : (k : ℚ) + 1 ≤ m := by exact_mod_cast not_le.mp hlt
    linarith
  have hge : k ≤ m := by
    by_contra hlt
    have : (m : ℚ) + 1 ≤ k := by exact_mod_cast not_le.mp hlt
    linarith
  exact Nat.le_antisymm hle hge

theorem nearestEven_near {n d : Nat} (hd : 0 < d) : IsNearest (nearestEven n d) (n / d) := by
  have hd' : (0 : ℚ) < d := by exact_mod_cast hd
  have hn : (n : ℚ) / d = (n / d : Nat) + (n % d : Nat) / d := by
    have : (n : ℚ) = d * (n / d : Nat) + (n % d : Nat) := by
      exact_mod_cast (Nat.div_add_mod n d).symm
    field_simp
    linarith
  have hpart0 : (0 : ℚ) ≤ (n % d : Nat) / d := by positivity
  have hpart1 : ((n % d : Nat) : ℚ) / d < 1 := by
    rw [div_lt_one hd']
    exact_mod_cast Nat.mod_lt n hd
  have hmore : d < 2 * (n % d) ↔ 1 / 2 < ((n % d : Nat) : ℚ) / d := by
    rw [lt_div_iff₀ hd', ← Nat.cast_lt (α := ℚ)]
    push_cast
    constructor <;> intro <;> linarith
  have hhalf : 2 * (n % d) = d ↔ ((n % d : Nat) : ℚ) / d = 1 / 2 := by
    rw [div_eq_div_iff hd'.ne' two_ne_zero, ← Nat.cast_inj (R := ℚ)]
    push_cast
    constructor <;> intro <;> linarith
  unfold nearestEven IsNearest
  simp only [hmore, hhalf, hn]
  split
  · rename_i hup
    rcases hup with hup | ⟨hup, hodd⟩
    · exact ⟨.inl (by push_cast; linarith), .inl (by push_cast; linarith)⟩
    · exact ⟨.inr ⟨by omega, by rw [hup]; push_cast; ring⟩, .inl (by push_cast; linarith)⟩
  · rename_i hdown
    refine ⟨.inl (by linarith), ?_⟩
    rcases lt_trichotomy (((n % d : Nat) : ℚ) / d) (1 / 2) with h | h | h
    · exact .inl (by linarith)
    · exact .inr ⟨by by_contra hodd; exact hdown (.inr ⟨h, by omega⟩), by rw [h]⟩
    · exact absurd (.inl h) hdown

/-! ## The exponent -/

theorem unitsAt_near (n : Nat) {d : Nat} (hd : 0 < d) (e : Int) :
    IsNearest (unitsAt n d e) (n / d / 2 ^ e) := by
  have he := twoPow_pos e.toNat
  have hne := twoPow_pos (-e).toNat
  have h := nearestEven_near (n := n * twoPow (-e).toNat) (Nat.mul_pos hd he)
  have hratio :
      ((n * twoPow (-e).toNat : Nat) : ℚ) / (d * twoPow e.toNat : Nat) = n / d / 2 ^ e := by
    rw [two_zpow]
    push_cast
    field_simp
  rwa [hratio] at h

theorem le_natCast_of_log2 {n : Nat} (hn : 0 < n) : (2 : ℚ) ^ (n.log2 : Int) ≤ n := by
  rw [zpow_natCast]
  exact_mod_cast Nat.log2_self_le hn.ne'

theorem natCast_lt_of_log2 (n : Nat) : (n : ℚ) < 2 ^ ((n.log2 : Int) + 1) := by
  have : n < 2 ^ (n.log2 + 1) := Nat.lt_log2_self
  exact_mod_cast this

/-- The difference of the logarithms gives the exponent at which the ratio has a significand of full
precision, or the one before. -/
theorem guess_spec {n d : Nat} (hn : 0 < n) (hd : 0 < d) {guess : Int}
    (hguess : (Nat.log2 n : Int) - Nat.log2 d - precision = guess) :
    2 ^ 52 * 2 ^ guess ≤ (n : ℚ) / d ∧ (n : ℚ) / d < 2 ^ precision * 2 ^ (guess + 1) := by
  have hd' : (0 : ℚ) < d := by exact_mod_cast hd
  constructor
  · rw [le_div_iff₀ hd']
    calc (2 ^ 52 * 2 ^ guess : ℚ) * d ≤ 2 ^ 52 * 2 ^ guess * 2 ^ ((d.log2 : Int) + 1) := by
          gcongr
          exact (natCast_lt_of_log2 d).le
      _ = 2 ^ (n.log2 : Int) := by
          rw [← zpow_natCast, ← zpow_add₀ two_ne_zero, ← zpow_add₀ two_ne_zero, ← hguess]
          congr 1
          unfold precision
          push_cast
          ring
      _ ≤ n := le_natCast_of_log2 hn
  · rw [div_lt_iff₀ hd']
    calc (n : ℚ) < 2 ^ ((n.log2 : Int) + 1) := natCast_lt_of_log2 n
      _ = 2 ^ precision * 2 ^ (guess + 1) * 2 ^ (d.log2 : Int) := by
          rw [← zpow_natCast, ← zpow_add₀ two_ne_zero, ← zpow_add₀ two_ne_zero, ← hguess]
          congr 1
          ring
      _ ≤ 2 ^ precision * 2 ^ (guess + 1) * d := by
          gcongr
          exact le_natCast_of_log2 hd

/-- The check of the guess compares the ratio with full precision. -/
theorem fits_iff {n d : Nat} (hd : 0 < d) (guess : Int) :
    n * twoPow (-guess).toNat < d * twoPow guess.toNat * twoPow precision ↔
      (n : ℚ) / d < 2 ^ precision * 2 ^ guess := by
  have hd' : (0 : ℚ) < d := by exact_mod_cast hd
  have := twoPow_pos guess.toNat
  have := twoPow_pos (-guess).toNat
  rw [two_zpow, ← cast_twoPow, mul_div_assoc', div_lt_div_iff₀ hd' (by positivity),
    ← Nat.cast_lt (α := ℚ)]
  push_cast
  constructor <;> intro <;> linarith

/-- The ratio has a significand of at most full precision at its exponent, and of full precision
unless the exponent is the least one. -/
theorem exponentOf_spec {n d : Nat} (hn : 0 < n) (hd : 0 < d) :
    minExponent ≤ exponentOf n d ∧ (n : ℚ) / d < 2 ^ precision * 2 ^ exponentOf n d ∧
      (exponentOf n d = minExponent ∨ 2 ^ 52 * 2 ^ exponentOf n d ≤ (n : ℚ) / d) := by
  obtain ⟨guess, hguess⟩ : ∃ guess : Int, (Nat.log2 n : Int) - Nat.log2 d - precision = guess :=
    ⟨_, rfl⟩
  obtain ⟨hlow, hhigh⟩ := guess_spec hn hd hguess
  have heq : exponentOf n d =
      max (if (n : ℚ) / d < 2 ^ precision * 2 ^ guess then guess else guess + 1) minExponent := by
    unfold exponentOf
    simp only [hguess, fits_iff hd]
  obtain ⟨e, he, hle, hlt⟩ : ∃ e : Int, exponentOf n d = max e minExponent ∧
      2 ^ 52 * 2 ^ e ≤ (n : ℚ) / d ∧ (n : ℚ) / d < 2 ^ precision * 2 ^ e := by
    by_cases h : (n : ℚ) / d < 2 ^ precision * 2 ^ guess
    · exact ⟨guess, by rw [heq, if_pos h], hlow, h⟩
    · refine ⟨guess + 1, by rw [heq, if_neg h], ?_, hhigh⟩
      rw [zpow_add_one₀ two_ne_zero, mul_comm]
      unfold precision at h
      linarith
  rw [he]
  refine ⟨le_max_right _ _, hlt.trans_le ?_, ?_⟩
  · have : (2 : ℚ) ^ e ≤ 2 ^ max e minExponent :=
      zpow_le_zpow_right₀ one_le_two (le_max_left _ _)
    gcongr
  · rcases Int.le_total e minExponent with h | h
    · exact .inl (max_eq_right h)
    · exact .inr (by rwa [max_eq_left h])

/-! ## Ratios -/

section

variable {negative : Bool} {n d : Nat} {x : Binary64}

/-- The number of the given units; one more bit than full precision goes into the exponent. -/
def ofUnits? (negative : Bool) (m : Nat) (e : Int) : Option Binary64 :=
  if m < twoPow precision then (if e ≤ maxExponent then some ⟨negative, m, e⟩ else none)
  else if e + 1 ≤ maxExponent then some ⟨negative, m / 2, e + 1⟩ else none

theorem ofRatio?_eq (hn : 0 < n) : ofRatio? negative n d =
    ofUnits? negative (unitsAt n d (exponentOf n d)) (exponentOf n d) := by
  unfold ofRatio?
  rw [if_neg hn.ne']
  extract_lets e m
  split
  rename_i m' e' hfit
  unfold ofUnits?
  split at hfit
  · rename_i hm
    cases hfit
    rw [if_pos hm]
  · rename_i hm
    cases hfit
    rw [if_neg hm]

theorem unitsAt_le (hn : 0 < n) (hd : 0 < d) : unitsAt n d (exponentOf n d) ≤ 2 ^ precision := by
  obtain ⟨-, hlt, -⟩ := exponentOf_spec hn hd
  obtain ⟨hlow, -⟩ := unitsAt_near n hd (exponentOf n d)
  have hlow := hlow.elim le_of_lt fun h => h.2.ge
  rw [← div_lt_iff₀ (two_zpow_pos _)] at hlt
  by_contra hgt
  have : ((2 ^ precision : Nat) : ℚ) + 1 ≤ unitsAt n d (exponentOf n d) := by
    exact_mod_cast not_le.mp hgt
  push_cast at this
  linarith

theorem encloses_of_nearest {q : ℚ} (h : IsNearest x.significand q)
    (hboundary : x.IsBoundary → x.significand ≤ q) : x.Encloses (q * 2 ^ x.exponent) := by
  have hu := two_zpow_pos x.exponent
  have hhigh : x.highEnd = (x.significand + 1 / 2) * 2 ^ x.exponent := by
    rw [highEnd, magnitude, quarter_eq]
    ring
  unfold Encloses
  rw [hhigh, mul_lt_mul_iff_of_pos_right hu, mul_left_inj' hu.ne']
  refine ⟨?_, h.2⟩
  by_cases hb : x.IsBoundary
  · refine .inl ?_
    have := mul_le_mul_of_nonneg_right (hboundary hb) hu.le
    rw [lowEnd, if_pos hb, magnitude, quarter_eq]
    linarith
  · have hlow : x.lowEnd = (x.significand - 1 / 2) * 2 ^ x.exponent := by
      rw [lowEnd, if_neg hb, magnitude, quarter_eq]
      ring
    rw [hlow, mul_lt_mul_iff_of_pos_right hu, mul_left_inj' hu.ne']
    exact h.1

/-- A significand that is rounded up beyond full precision becomes a power of two. -/
theorem encloses_of_carry {q : ℚ} {e : Int} (hs : x.significand = 2 ^ 52) (he : x.exponent = e + 1)
    (hmin : minExponent ≤ e) (h : IsNearest (2 ^ precision) q) (hq : q < 2 ^ precision) :
    x.Encloses (q * 2 ^ e) := by
  have hu := two_zpow_pos e
  have hb : x.IsBoundary := ⟨hs, by omega⟩
  have hquarter : x.quarter = 2 ^ e / 2 := by
    rw [quarter_eq, he, zpow_add_one₀ two_ne_zero]
    ring
  have hmagnitude : x.magnitude = 2 ^ precision * 2 ^ e := by
    rw [magnitude, hs, he, zpow_add_one₀ two_ne_zero]
    unfold precision
    push_cast
    ring
  have hlow : x.lowEnd = ((2 ^ precision : Nat) - 1 / 2) * 2 ^ e := by
    rw [lowEnd, if_pos hb, hmagnitude, hquarter]
    push_cast
    ring
  have heven : x.significand % 2 = 0 := by
    rw [hs]
    norm_num
  constructor
  · rw [hlow, mul_lt_mul_iff_of_pos_right hu, mul_left_inj' hu.ne']
    exact h.1.imp_right fun h => ⟨heven, h.2⟩
  · refine .inl ?_
    have := mul_lt_mul_of_pos_right hq hu
    rw [highEnd, hmagnitude, hquarter]
    linarith

/-- **The rounding interval of what a ratio is rounded to encloses the ratio.** -/
theorem encloses_of_ofRatio? (hn : 0 < n) (hd : 0 < d) (h : ofRatio? negative n d = some x) :
    x.negative = negative ∧ x.Finite ∧ x.Encloses (n / d) := by
  obtain ⟨hmin, hlt, hfull⟩ := exponentOf_spec hn hd
  have hle := unitsAt_le hn hd
  have hnear := unitsAt_near n hd (exponentOf n d)
  rw [ofRatio?_eq hn, ofUnits?] at h
  generalize exponentOf n d = e at *
  generalize unitsAt n d e = m at *
  have hu := two_zpow_pos e
  have hratio : (n : ℚ) / d = n / d / 2 ^ e * 2 ^ e := by
    field_simp
  rw [← div_lt_iff₀ hu] at hlt
  rw [← le_div_iff₀ hu] at hfull
  rw [hratio]
  by_cases hm : m < twoPow precision
  · rw [if_pos hm] at h
    obtain ⟨hmax, h⟩ := Option.ite_none_right_eq_some.mp h
    cases h
    have hfull' : e = minExponent ∨ 2 ^ 52 ≤ m := by
      refine hfull.imp_right fun hfull => ?_
      by_contra hlt
      have : (m : ℚ) + 1 ≤ (2 ^ 52 : Nat) := by exact_mod_cast not_le.mp hlt
      have := hnear.2.elim le_of_lt fun h => h.2.le
      push_cast at *
      linarith
    refine ⟨rfl, ⟨hm, hmin, hmax, hfull'⟩, encloses_of_nearest hnear ?_⟩
    rintro ⟨hs, he⟩
    have hs : (m : ℚ) = 2 ^ 52 := by
      rw [show m = twoPow 52 from hs, cast_twoPow]
    show (m : ℚ) ≤ _
    rw [hs]
    exact hfull.resolve_left (ne_of_gt he)
  · rw [if_neg hm] at h
    obtain ⟨hmax, h⟩ := Option.ite_none_right_eq_some.mp h
    cases h
    obtain rfl : m = 2 ^ precision := Nat.le_antisymm hle (Nat.le_of_not_lt hm)
    have hs : 2 ^ precision / 2 = 2 ^ 52 := by
      unfold precision
      norm_num
    refine ⟨rfl, ⟨?_, Int.le_add_one hmin, hmax, .inr hs.ge⟩,
      encloses_of_carry hs rfl hmin hnear hlt⟩
    show 2 ^ precision / 2 < 2 ^ precision
    rw [hs]
    exact Nat.pow_lt_pow_right (by decide) (by decide)

theorem finite_of_ofRatio? (hd : 0 < d) (h : ofRatio? negative n d = some x) : x.Finite := by
  rcases Nat.eq_zero_or_pos n with rfl | hn
  · obtain rfl : zero negative = x := by simpa [ofRatio?] using h
    exact ⟨Nat.two_pow_pos _, Int.le_refl _, (by decide : minExponent ≤ maxExponent), .inl rfl⟩
  · exact (encloses_of_ofRatio? hn hd h).2.1

/-- A ratio that is not below one is not rounded to zero. -/
theorem significand_ne_zero_of_ofRatio? (hd : 0 < d) (hle : d ≤ n)
    (h : ofRatio? negative n d = some x) : x.significand ≠ 0 := by
  have hn := Nat.lt_of_lt_of_le hd hle
  have hone : (1 : ℚ) ≤ n / d := by
    rw [one_le_div (by exact_mod_cast hd)]
    exact_mod_cast hle
  have hlarge : (1 : ℚ) ≤ n / d / 2 ^ exponentOf n d := by
    rw [one_le_div (two_zpow_pos _)]
    obtain ⟨-, -, hmin | hfull⟩ := exponentOf_spec hn hd
    · rw [hmin]
      exact le_trans (zpow_le_one_of_nonpos₀ one_le_two (by decide)) hone
    · have := two_zpow_pos (exponentOf n d)
      linarith
  have hunits : unitsAt n d (exponentOf n d) ≠ 0 := by
    intro hzero
    obtain ⟨-, hnear⟩ := unitsAt_near n hd (exponentOf n d)
    have hnear := hnear.elim le_of_lt fun h => h.2.le
    rw [hzero, Nat.cast_zero] at hnear
    linarith
  rw [ofRatio?_eq hn, ofUnits?] at h
  split at h
  · obtain ⟨-, h⟩ := Option.ite_none_right_eq_some.mp h
    cases h
    exact hunits
  · rename_i hcarry
    obtain ⟨-, h⟩ := Option.ite_none_right_eq_some.mp h
    cases h
    have : twoPow precision = 9007199254740992 := by decide
    show unitsAt n d (exponentOf n d) / 2 ≠ 0
    omega

/-- What is not too small is rounded to a number of full precision. -/
theorem full_of_encloses (hx : x.Finite) {q : ℚ} (hencloses : x.Encloses q)
    (hq : 2 ^ (-100 : Int) ≤ q) : 2 ^ 52 ≤ x.significand := by
  refine hx.full.resolve_left fun hmin => ?_
  have hhigh := hencloses.le_high
  have hunit := two_zpow_pos x.exponent
  have hs : (x.significand : ℚ) + 1 ≤ 2 ^ precision := by exact_mod_cast hx.significand_lt
  have hsmall : x.highEnd < 2 ^ precision * 2 ^ x.exponent := by
    rw [highEnd, magnitude, quarter_eq]
    have := mul_le_mul_of_nonneg_right hs hunit.le
    linarith
  have hbound : (2 : ℚ) ^ precision * 2 ^ x.exponent ≤ 2 ^ (-100 : Int) := by
    rw [hmin, ← zpow_natCast, ← zpow_add₀ two_ne_zero]
    exact zpow_le_zpow_right₀ one_le_two (by decide)
  linarith

/-- A ratio that is not too large can be rounded. -/
theorem ofRatio?_isSome (negative : Bool) (hn : 0 < n) (hd : 0 < d) (h : (n : ℚ) / d < 2 ^ 200) :
    ∃ x, ofRatio? negative n d = some x := by
  obtain ⟨hmin, -, hfull⟩ := exponentOf_spec hn hd
  have hmax : exponentOf n d + 1 ≤ maxExponent := by
    rcases hfull with hfull | hfull
    · rw [hfull]
      decide
    · have : (2 : ℚ) ^ (52 + exponentOf n d) < 2 ^ (200 : Int) := by
        rw [zpow_add₀ two_ne_zero]
        exact_mod_cast hfull.trans_lt h
      have := (zpow_lt_zpow_iff_right₀ (one_lt_two : (1 : ℚ) < 2)).mp this
      have : maxExponent = 971 := rfl
      omega
  have hmax' : exponentOf n d ≤ maxExponent := by omega
  rw [ofRatio?_eq hn, ofUnits?, if_pos hmax, if_pos hmax']
  split
  · exact ⟨_, rfl⟩
  · exact ⟨_, rfl⟩

/-- A ratio that is a number itself stays as it is. -/
theorem magnitude_of_ofRatio? {k : Nat} (hn : 0 < n) (hd : 0 < d)
    (hk : (n : ℚ) / d = k * 2 ^ exponentOf n d) (h : ofRatio? negative n d = some x) :
    x.magnitude = n / d := by
  obtain ⟨-, hlt, -⟩ := exponentOf_spec hn hd
  have hu := two_zpow_pos (exponentOf n d)
  have hunits : unitsAt n d (exponentOf n d) = k := by
    have hnear := unitsAt_near n hd (exponentOf n d)
    rw [hk, mul_div_cancel_right₀ _ hu.ne'] at hnear
    exact hnear.eq_of_natCast
  have hfits : k < twoPow precision := by
    rw [hk, mul_lt_mul_iff_of_pos_right hu, ← cast_twoPow] at hlt
    exact_mod_cast hlt
  rw [ofRatio?_eq hn, ofUnits?, hunits, if_pos hfits] at h
  obtain ⟨-, h⟩ := Option.ite_none_right_eq_some.mp h
  cases h
  exact hk.symm

end

/-! ## Whole numbers, products and quotients -/

/-- Whole numbers of at most 53 bits before their trailing zeros are floating-point numbers. -/
theorem ofNat?_exact {m j : Nat} (hm : m < 2 ^ precision) (hj : j ≤ 100) :
    ∃ x, ofNat? (m * 2 ^ j) = some x ∧ x.negative = false ∧ x.magnitude = m * 2 ^ j := by
  rcases Nat.eq_zero_or_pos m with rfl | hpos
  · refine ⟨zero false, by simp [ofNat?, ofRatio?], rfl, ?_⟩
    simp [magnitude, zero]
  have hn : 0 < m * 2 ^ j := by positivity
  have hratio : ((m * 2 ^ j : Nat) : ℚ) / (1 : Nat) = m * 2 ^ j := by
    push_cast
    ring
  have hlt : ((m * 2 ^ j : Nat) : ℚ) / (1 : Nat) < 2 ^ precision * 2 ^ j := by
    rw [hratio]
    exact mul_lt_mul_of_pos_right (by exact_mod_cast hm) (by positivity)
  have hbound : (2 : ℚ) ^ precision * 2 ^ j ≤ 2 ^ 200 := by
    rw [← pow_add]
    exact pow_le_pow_right₀ one_le_two (by unfold precision; omega)
  obtain ⟨x, hx⟩ := ofRatio?_isSome false hn Nat.one_pos (hlt.trans_le hbound)
  obtain ⟨hsign, -, -⟩ := encloses_of_ofRatio? hn Nat.one_pos hx
  refine ⟨x, hx, hsign, ?_⟩
  have he : exponentOf (m * 2 ^ j) 1 ≤ j := by
    obtain ⟨-, -, hmin | hfull⟩ := exponentOf_spec hn Nat.one_pos
    · rw [hmin]
      exact Int.le_trans (by decide) (Int.natCast_nonneg j)
    · have : (2 : ℚ) ^ (52 + exponentOf (m * 2 ^ j) 1) < 2 ^ ((precision : Int) + j) := by
        rw [zpow_add₀ two_ne_zero, zpow_add₀ two_ne_zero]
        exact_mod_cast hfull.trans_lt hlt
      have := (zpow_lt_zpow_iff_right₀ (one_lt_two : (1 : ℚ) < 2)).mp this
      unfold precision at this
      omega
  obtain ⟨i, hi⟩ := Int.eq_ofNat_of_zero_le (Int.sub_nonneg_of_le he)
  have hk : ((m * 2 ^ j : Nat) : ℚ) / (1 : Nat) =
      (m * 2 ^ i : Nat) * 2 ^ exponentOf (m * 2 ^ j) 1 := by
    have : (2 : ℚ) ^ j = 2 ^ i * 2 ^ exponentOf (m * 2 ^ j) 1 := by
      rw [← zpow_natCast, ← zpow_natCast, ← zpow_add₀ two_ne_zero]
      congr 1
      omega
    rw [hratio, this]
    push_cast
    ring
  rw [magnitude_of_ofRatio? hn Nat.one_pos hk hx, hratio]

section

variable {x y z : Binary64}

theorem finite_of_ofNat? {n : Nat} (h : ofNat? n = some x) : x.Finite :=
  finite_of_ofRatio? Nat.one_pos h

theorem significand_ne_zero_of_ofNat? {n : Nat} (hn : 0 < n) (h : ofNat? n = some x) :
    x.significand ≠ 0 :=
  significand_ne_zero_of_ofRatio? Nat.one_pos hn h

theorem numerator_pos (h : x.significand ≠ 0) : 0 < x.numerator :=
  Nat.mul_pos (Nat.pos_of_ne_zero h) (twoPow_pos _)

theorem zero_mul? (negative : Bool) (y : Binary64) :
    (zero negative).mul? y = some (zero (negative != y.negative)) := by
  simp [mul?, ofRatio?, numerator, zero]

theorem zero_div? (negative : Bool) (y : Binary64) :
    (zero negative).div? y = some (zero (negative != y.negative)) := by
  simp [div?, ofRatio?, numerator, zero]

theorem finite_of_mul? (h : x.mul? y = some z) : z.Finite :=
  finite_of_ofRatio? (Nat.mul_pos x.denominator_pos y.denominator_pos) h

theorem finite_of_div? (hy : y.significand ≠ 0) (h : x.div? y = some z) : z.Finite :=
  finite_of_ofRatio? (Nat.mul_pos x.denominator_pos (numerator_pos hy)) h

/-- Products that are not too large are rounded once. -/
theorem mul?_spec (hx : x.significand ≠ 0) (hy : y.significand ≠ 0)
    (hlt : x.magnitude * y.magnitude < 2 ^ 200) : ∃ z, x.mul? y = some z ∧
      z.negative = (x.negative != y.negative) ∧ z.Finite ∧
        z.Encloses (x.magnitude * y.magnitude) := by
  have hn := Nat.mul_pos (numerator_pos hx) (numerator_pos hy)
  have hd := Nat.mul_pos x.denominator_pos y.denominator_pos
  have hvalue : x.magnitude * y.magnitude =
      (x.numerator * y.numerator : Nat) / (x.denominator * y.denominator : Nat) := by
    rw [magnitude_eq_div x, magnitude_eq_div y, div_mul_div_comm]
    push_cast
    rfl
  rw [hvalue] at hlt ⊢
  obtain ⟨z, hz⟩ := ofRatio?_isSome _ hn hd hlt
  exact ⟨z, hz, encloses_of_ofRatio? hn hd hz⟩

/-- Quotients that are not too large are rounded once. -/
theorem div?_spec (hx : x.significand ≠ 0) (hy : y.significand ≠ 0)
    (hlt : x.magnitude / y.magnitude < 2 ^ 200) : ∃ z, x.div? y = some z ∧
      z.negative = (x.negative != y.negative) ∧ z.Finite ∧
        z.Encloses (x.magnitude / y.magnitude) := by
  have hn := Nat.mul_pos (numerator_pos hx) y.denominator_pos
  have hd := Nat.mul_pos x.denominator_pos (numerator_pos hy)
  have hvalue : x.magnitude / y.magnitude =
      (x.numerator * y.denominator : Nat) / (x.denominator * y.numerator : Nat) := by
    rw [magnitude_eq_div x, magnitude_eq_div y, div_div_div_eq]
    push_cast
    rfl
  rw [hvalue] at hlt ⊢
  obtain ⟨z, hz⟩ := ofRatio?_isSome _ hn hd hlt
  exact ⟨z, hz, encloses_of_ofRatio? hn hd hz⟩

end

end SpotGateway.Binary64
