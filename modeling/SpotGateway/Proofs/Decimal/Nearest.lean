import SpotGateway.Proofs.Binary64.Rounding

/-!
# The decimal nearest to a number

What a number is rounded to: as many digits behind the point as fit, and a half to the even digit.

* `Decimal.Rounds`, `Decimal.Nearest` — rounding, without and with the sign;
* `Decimal.Overflows` — numbers that no decimal is near to;
* `Decimal.Rounds.mono`, `Decimal.Nearest.mono` — rounding keeps the order, also across scales;
* `Decimal.Nearest.of_holds`, `Decimal.Nearest.le_of_holds`, `Decimal.Nearest.ge_of_holds` — a
  decimal is nearest to itself, so none lies between a number and what it is rounded to;
* `Decimal.Nearest.intCast_le`, `Decimal.Nearest.le_intCast` — nor does a whole number;
* `Decimal.Computes` — an operation whose exact result is a given number.
-/

set_option autoImplicit false

namespace SpotGateway

/-! ## To whole numbers -/

namespace Binary64.IsNearest

variable {m n : Nat} {q r : ℚ}

theorem bounds (h : IsNearest m q) : (m : ℚ) - 1 / 2 ≤ q ∧ q ≤ m + 1 / 2 :=
  ⟨h.1.elim le_of_lt fun h => h.2.ge, h.2.elim le_of_lt fun h => h.2.le⟩

theorem of_abs_lt (hlow : (m : ℚ) - 1 / 2 < q) (hhigh : q < m + 1 / 2) : IsNearest m q :=
  ⟨.inl hlow, .inl hhigh⟩

theorem natCast (m : Nat) : IsNearest m m :=
  of_abs_lt (by linarith) (by linarith)

/-- What is nearest to the greater number is not less. -/
theorem mono (h : IsNearest m q) (h' : IsNearest n r) (hqr : q ≤ r) : m ≤ n := by
  by_contra hlt
  have hnext : (n : ℚ) + 1 ≤ m := by exact_mod_cast not_le.mp hlt
  have hlow := h.bounds.1
  have hhigh := h'.bounds.2
  -- both numbers are the middle of two whole numbers, of which only one is even
  have hq : q = m - 1 / 2 := by linarith
  have hr : r = n + 1 / 2 := by linarith
  have hm : m % 2 = 0 := h.1.elim (fun hlt => absurd hq hlt.ne') And.left
  have hn : n % 2 = 0 := h'.2.elim (fun hlt => absurd hr hlt.ne) And.left
  have hmn : m = n + 1 := by
    have : (m : ℚ) = n + 1 := by linarith
    exact_mod_cast this
  omega

/-- An even number is reached from the middle below it on. -/
theorem even_le_iff {l : Nat} (hl : l % 2 = 0) (h : IsNearest m q) :
    l ≤ m ↔ (l : ℚ) - 1 / 2 ≤ q := by
  constructor
  · intro hle
    have : (l : ℚ) ≤ m := by exact_mod_cast hle
    linarith [h.bounds.1]
  · intro hle
    by_contra hlt
    have hnext : (m : ℚ) + 1 ≤ l := by exact_mod_cast not_le.mp hlt
    have hq : q = m + 1 / 2 := by linarith [h.bounds.2]
    have hm : m % 2 = 0 := h.2.elim (fun hlt => absurd hq hlt.ne) And.left
    have hlm : l = m + 1 := by
      have : (l : ℚ) = m + 1 := by linarith
      exact_mod_cast this
    omega

end Binary64.IsNearest

namespace Decimal

open Binary64 (IsNearest)

/-! ## Without the sign -/

/-- Numbers from half a unit below the limit of magnitudes on, and their opposites. -/
def Overflows (x : ℚ) : Prop := (coefficientLimit : ℚ) - 1 / 2 ≤ |x|

/-- `m / 10 ^ k` is what `q`, which is not negative, is rounded to: `m` is nearest to `q` in units
of `k` digits behind the point, and with one digit more it would not fit. -/
structure Rounds (q : ℚ) (m k : Nat) : Prop where
  scale_le : k ≤ maxScale
  lt : m < coefficientLimit
  nearest : IsNearest m (q * 10 ^ k)
  full : k = maxScale ∨ (coefficientLimit : ℚ) - 1 / 2 ≤ q * 10 ^ (k + 1)

theorem coefficientLimit_even : coefficientLimit % 2 = 0 := by decide

/-- The last digit of the limit is above the middle. -/
theorem coefficientLimit_eq : coefficientLimit = 10 * (coefficientLimit / 10) + 6 := by decide

namespace Rounds

variable {q r : ℚ} {m n k j : Nat}

theorem units_lt (h : Rounds q m k) : q * 10 ^ k < coefficientLimit - 1 / 2 := by
  by_contra hle
  have hlarge := (h.nearest.even_le_iff coefficientLimit_even).mpr (le_of_not_gt hle)
  exact absurd h.lt hlarge.not_gt

theorem lt_limit (h : Rounds q m k) (hq : 0 ≤ q) : q < coefficientLimit - 1 / 2 :=
  lt_of_le_of_lt (le_mul_of_one_le_right hq (one_le_pow₀ (by norm_num))) h.units_lt

/-- Numbers of at most `j` digits behind the point as far as they fit are below the limit in units
of any scale up to `j`. -/
theorem units_lt_of_le (h : Rounds q m j) (hq : 0 ≤ q) (hkj : k ≤ j) :
    q * 10 ^ k < coefficientLimit - 1 / 2 := by
  refine lt_of_le_of_lt ?_ h.units_lt
  gcongr
  norm_num

/-- With one digit more, what a number is rounded to has no fewer digits than any decimal can
hold. -/
theorem limit_le (h : Rounds q m k) (hk : k ≠ maxScale) : coefficientLimit - 1 ≤ m * 10 := by
  have hfull := h.full.resolve_left hk
  have hlow := h.nearest.bounds.2
  rw [pow_succ, ← mul_assoc] at hfull
  have hlimit := coefficientLimit_eq
  generalize coefficientLimit / 10 = c at hlimit
  have hc : (c : ℚ) < m := by
    rw [hlimit] at hfull
    push_cast at hfull
    linarith
  have hc : c < m := by exact_mod_cast hc
  omega

/-- **Rounding keeps the order**, also where the smaller number has more digits behind the point. -/
theorem mono (h : Rounds q m k) (h' : Rounds r n j) (hq : 0 ≤ q) (hqr : q ≤ r) :
    (m : ℚ) / 10 ^ k ≤ n / 10 ^ j := by
  have hr : 0 ≤ r := hq.trans hqr
  rcases Nat.lt_trichotomy k j with hkj | rfl | hjk
  · -- the smaller number leaves no room for a digit that the greater one has
    exfalso
    have hk : k ≠ maxScale := by
      have := h'.scale_le
      omega
    have hunits := h'.units_lt_of_le hr (Nat.succ_le_of_lt hkj)
    have hstep : q * 10 ^ (k + 1) ≤ r * 10 ^ (k + 1) := by gcongr
    exact absurd (h.full.resolve_left hk) (hstep.trans_lt hunits).not_ge
  · have hmn : m ≤ n := h.nearest.mono h'.nearest (by gcongr)
    gcongr
  · have hj : j ≠ maxScale := by
      have := h.scale_le
      omega
    have hdigits : m ≤ n * 10 := by
      have := h.lt
      have := h'.limit_le hj
      omega
    calc (m : ℚ) / 10 ^ k ≤ m / 10 ^ (j + 1) := by
          gcongr
          · norm_num
          · omega
      _ ≤ (n * 10 : Nat) / 10 ^ (j + 1) := by gcongr
      _ = n / 10 ^ j := by
          push_cast
          rw [pow_succ]
          field_simp

/-- A number of few digits behind the point can be given more of them, until it is full. -/
theorem of_digits {s : Nat} (hm : m < coefficientLimit) (hs : s ≤ maxScale) :
    ∃ n k, Rounds ((m : ℚ) / 10 ^ s) n k ∧ (m : ℚ) / 10 ^ s = n / 10 ^ k := by
  obtain ⟨room, hroom⟩ := Nat.exists_eq_add_of_le hs
  have hunits : ∀ m s : Nat, (m : ℚ) / 10 ^ s * 10 ^ s = m := fun m s => by field_simp
  -- by induction on how many digits the scale leaves room for
  induction room generalizing m s with
  | zero =>
    refine ⟨m, s, ⟨hs, hm, ?_, .inl hroom.symm⟩, rfl⟩
    rw [hunits]
    exact .natCast m
  | succ room ih =>
    rcases Nat.lt_or_ge (m * 10) coefficientLimit with hlt | hge
    · have hvalue : ((m * 10 : Nat) : ℚ) / 10 ^ (s + 1) = m / 10 ^ s := by
        push_cast
        rw [pow_succ]
        field_simp
      have := ih (m := m * 10) (s := s + 1) hlt (by omega) (by omega)
      rwa [hvalue] at this
    · refine ⟨m, s, ⟨hs, hm, ?_, .inr ?_⟩, rfl⟩
      · rw [hunits]
        exact .natCast m
      · rw [pow_succ, ← mul_assoc, hunits]
        have : (coefficientLimit : ℚ) ≤ m * 10 := by exact_mod_cast hge
        linarith

end Rounds

/-! ## With the sign -/

/-- `y` is what `x` is rounded to. -/
def Nearest (x y : ℚ) : Prop :=
  ∃ m k, Rounds |x| m k ∧ y = signOf (decide (x < 0)) * (m / 10 ^ k)

namespace Nearest

variable {x x' y y' z : ℚ}

theorem holds (h : Nearest x y) : Holds y := by
  obtain ⟨m, k, hround, rfl⟩ := h
  rw [← mul_div_assoc]
  exact holds_of_digits _ hround.lt hround.scale_le

theorem not_overflows (h : Nearest x y) : ¬ Overflows x := by
  obtain ⟨m, k, hround, -⟩ := h
  exact (hround.lt_limit (abs_nonneg x)).not_ge

theorem of_nonneg {q : ℚ} {m k : Nat} (hq : 0 ≤ q) (h : Rounds q m k) : Nearest q (m / 10 ^ k) :=
  ⟨m, k, by rwa [abs_of_nonneg hq], by simp [signOf, hq.not_gt]⟩

/-- **Rounding keeps the order.** -/
theorem mono (h : Nearest x y) (h' : Nearest x' y') (hle : x ≤ x') : y ≤ y' := by
  obtain ⟨m, k, hround, rfl⟩ := h
  obtain ⟨n, j, hround', rfl⟩ := h'
  have hm : (0 : ℚ) ≤ m / 10 ^ k := by positivity
  have hn : (0 : ℚ) ≤ n / 10 ^ j := by positivity
  by_cases hx : x < 0
  · by_cases hx' : x' < 0
    · have := hround'.mono hround (abs_nonneg x') (by
        rw [abs_of_neg hx, abs_of_neg hx']
        linarith)
      simp only [hx, hx', decide_true, signOf, if_true]
      linarith
    · simp only [hx, hx', decide_true, decide_false, signOf, if_true]
      simp only [Bool.false_eq_true, if_false]
      linarith
  · have hx' : ¬ x' < 0 := ((le_of_not_gt hx).trans hle).not_gt
    have := hround.mono hround' (abs_nonneg x) (by
      rw [abs_of_nonneg (le_of_not_gt hx), abs_of_nonneg (le_of_not_gt hx')]
      exact hle)
    simp only [hx, hx', decide_false, signOf, Bool.false_eq_true, if_false]
    linarith

theorem unique (h : Nearest x y) (h' : Nearest x y') : y = y' :=
  le_antisymm (h.mono h' le_rfl) (h'.mono h le_rfl)

/-- Opposite numbers are rounded to opposite decimals, whatever sign a zero has. -/
theorem signOf_mul {q : ℚ} (hq : 0 ≤ q) (h : Nearest q y) (negative : Bool) :
    Nearest (signOf negative * q) (signOf negative * y) := by
  obtain ⟨m, k, hround, rfl⟩ := h
  rw [abs_of_nonneg hq] at hround
  have habs : |signOf negative * q| = q := by
    rw [abs_mul, abs_signOf, one_mul, abs_of_nonneg hq]
  refine ⟨m, k, by rwa [habs], ?_⟩
  rcases hq.eq_or_lt with rfl | hpos
  · have hm : m = 0 := by
      have := hround.nearest
      rw [zero_mul, ← Nat.cast_zero] at this
      exact this.eq_of_natCast
    simp [hm]
  · cases negative with
    | false => simp [signOf, hq.not_gt]
    | true => simp [signOf, hq.not_gt, hpos]

/-- **A decimal is nearest to itself.** -/
theorem of_holds (h : Holds x) : Nearest x x := by
  obtain ⟨d, rfl⟩ := h
  obtain ⟨m, k, hround, hvalue⟩ := Rounds.of_digits d.magnitude_lt d.scale_le
  have := (of_nonneg (by positivity) hround).signOf_mul (by positivity) d.negative
  rwa [← hvalue, ← mul_div_assoc, ← d.value_eq] at this

theorem eq_of_holds (h : Nearest x y) (hx : Holds x) : y = x := h.unique (of_holds hx)

/-- No decimal lies below a number and above what it is rounded to. -/
theorem ge_of_holds (h : Nearest x y) (hz : Holds z) (hle : z ≤ x) : z ≤ y :=
  (of_holds hz).mono h hle

/-- No decimal lies above a number and below what it is rounded to. -/
theorem le_of_holds (h : Nearest x y) (hz : Holds z) (hle : x ≤ z) : y ≤ z :=
  h.mono (of_holds hz) hle

end Nearest

theorem not_overflows_of_holds {x : ℚ} (h : Holds x) : ¬ Overflows x :=
  (Nearest.of_holds h).not_overflows

theorem holds_intCast {n : ℤ} (h : |(n : ℚ)| < coefficientLimit) : Holds n := by
  have habs : |(n : ℚ)| = n.natAbs := by
    rw [Nat.cast_natAbs, Int.cast_abs]
  rw [habs] at h
  refine holds_of_abs_eq (m := n.natAbs) (by exact_mod_cast h) (Nat.zero_le _) ?_
  rw [habs, pow_zero, div_one]

namespace Nearest

variable {x y : ℚ} {n : ℤ}

/-- Rounding does not cross whole numbers. -/
theorem intCast_le (h : Nearest x y) (hle : n ≤ x) : n ≤ y := by
  by_cases hsmall : |(n : ℚ)| < coefficientLimit
  · exact h.ge_of_holds (holds_intCast hsmall) hle
  · have hx := lt_of_not_ge h.not_overflows
    have hy := neg_lt_of_abs_lt h.holds.abs_lt
    rcases le_abs.mp (le_of_not_gt hsmall) with hpos | hneg
    · linarith [le_abs_self x]
    · linarith

theorem le_intCast (h : Nearest x y) (hle : x ≤ n) : y ≤ n := by
  by_cases hsmall : |(n : ℚ)| < coefficientLimit
  · exact h.le_of_holds (holds_intCast hsmall) hle
  · have hx := lt_of_not_ge h.not_overflows
    have hy := lt_of_abs_lt h.holds.abs_lt
    rcases le_abs.mp (le_of_not_gt hsmall) with hpos | hneg
    · linarith
    · linarith [neg_le_abs x]

/-- The whole part of what a number is rounded to is its own, or the next one where the number is
rounded up to it. -/
theorem floor_eq (h : Nearest x y) : ⌊y⌋ = ⌊x⌋ ∨ y = ⌊x⌋ + 1 := by
  have hlow : (⌊x⌋ : ℚ) ≤ y := h.intCast_le (Int.floor_le x)
  have hhigh : y ≤ (⌊x⌋ + 1 : ℤ) := h.le_intCast (by
    push_cast
    exact (Int.lt_floor_add_one x).le)
  push_cast at hhigh
  rcases hhigh.eq_or_lt with heq | hlt
  · exact .inr heq
  · exact .inl (Int.floor_eq_iff.mpr ⟨hlow, hlt⟩)

end Nearest

/-! ## Operations -/

/-- The outcome of an operation whose exact result is `x`: the decimal nearest to it, or a fault if
there is none. -/
def Computes (x : ℚ) : Checked Decimal → Prop
  | .ok d => Nearest x d.value
  | .error fault => fault = .decimalOverflow ∧ Overflows x

namespace Computes

variable {x : ℚ} {r : Checked Decimal} {d : Decimal} {fault : Fault}

theorem of_orElse {o : Option Decimal} (hsome : ∀ d, o = some d → Nearest x d.value)
    (hnone : o = none → Overflows x) : Computes x (Fault.decimalOverflow.orElse o) := by
  cases o with
  | none => exact ⟨rfl, hnone rfl⟩
  | some d => exact hsome d rfl

theorem nearest (h : Computes x r) (hr : r = .ok d) : Nearest x d.value := by
  subst hr
  exact h

theorem eq_error_iff (h : Computes x r) :
    r = .error fault ↔ fault = .decimalOverflow ∧ Overflows x := by
  cases r with
  | ok d =>
    have : ¬ Overflows x := h.not_overflows
    simp [this]
  | error fault' =>
    obtain ⟨rfl, hlarge⟩ := h
    simp [hlarge, eq_comm]

/-- A number that is not too large has an outcome. -/
theorem exists_ok (h : Computes x r) (hx : ¬ Overflows x) : ∃ d, r = .ok d ∧ Nearest x d.value := by
  cases r with
  | ok d => exact ⟨d, rfl, h⟩
  | error fault => exact absurd h.2 hx

end Computes

end Decimal

end SpotGateway
