import SpotGateway.Proofs.Binary64.Value

/-!
# The shortest digits

The search for the fewest digits that identify a floating-point number always ends with digits that
do, and numbers of at most 15 digits are found again.

* `Binary64.point_spec` — the decade of a number;
* `Binary64.exists_hit` — 17 digits are enough;
* `Binary64.shortest_spec`, `Binary64.shortest_bounds` — the outcome of the search;
* `Binary64.Encloses.eq_of_step` — long steps leave one multiple in the rounding interval;
* `Binary64.shortest_of_encloses` — a number of at most 15 digits that rounds to `x` is the outcome.
-/

set_option autoImplicit false

namespace SpotGateway.Binary64

variable {x : Binary64}

/-! ## The decade -/

/-- The first decade that is tried for numbers from `2 ^ k` to `2 ^ (k + 1)` is not too high, and
the last one not too low. -/
def decadeFits (k : Int) : Bool :=
  let least := k * 30103 / 100000 - 1
  decide (10 ^ (least - 1).toNat * 2 ^ (-k).toNat ≤ 2 ^ k.toNat * 10 ^ (-(least - 1)).toNat) &&
    decide (2 ^ (k + 1).toNat * 10 ^ (-(least + 4)).toNat ≤
      10 ^ (least + 4).toNat * 2 ^ (-(k + 1)).toNat)

theorem all_decadeFits : ((List.range 2098).all fun i => decadeFits ((i : Nat) - 1074)) = true := by
  decide +kernel

theorem decade_bounds {k : Int} (hlow : -1074 ≤ k) (hhigh : k ≤ 1023) :
    (10 : ℚ) ^ (k * 30103 / 100000 - 1 - 1) ≤ 2 ^ k ∧
      (2 : ℚ) ^ (k + 1) ≤ 10 ^ (k * 30103 / 100000 - 1 + 4) := by
  obtain ⟨i, hi⟩ := Int.eq_ofNat_of_zero_le (show 0 ≤ k + 1074 by omega)
  have hfits := List.all_eq_true.mp all_decadeFits i (List.mem_range.mpr (by omega))
  rw [show ((i : Nat) : Int) - 1074 = k by omega] at hfits
  unfold decadeFits at hfits
  simp only [Bool.and_eq_true, decide_eq_true_eq] at hfits
  generalize k * 30103 / 100000 - 1 = least at *
  constructor
  · rw [zpow_eq_div 10, zpow_eq_div 2, div_le_div_iff₀ (by positivity) (by positivity)]
    exact_mod_cast hfits.1
  · rw [zpow_eq_div 10, zpow_eq_div 2, div_le_div_iff₀ (by positivity) (by positivity)]
    exact_mod_cast hfits.2

theorem below_iff {k : Int} : x.below k = true ↔ x.magnitude < 10 ^ k := by
  rw [below, beq_iff_eq, compareAt_eq, compare_gt_iff_gt, magnitude_eq_quarter, quarters]
  push_cast
  rw [one_mul]

/-- **The point moves to the front of the first digit.** -/
theorem point_spec (hx : x.Finite) (h : x.significand ≠ 0) :
    10 ^ (x.point - 1) ≤ x.magnitude ∧ x.magnitude < 10 ^ x.point := by
  obtain ⟨k, hk⟩ : ∃ k : Int, (Nat.log2 x.significand : Int) + x.exponent = k := ⟨_, rfl⟩
  have hlog : Nat.log2 x.significand < precision := (Nat.log2_lt h).mpr hx.significand_lt
  have hmin := hx.exponent_ge
  have hmax := hx.exponent_le
  unfold minExponent at hmin
  unfold maxExponent at hmax
  unfold precision at hlog
  obtain ⟨hfirst, hlast⟩ := decade_bounds (k := k) (by omega) (by omega)
  have hlow : (2 : ℚ) ^ k ≤ x.magnitude := by
    have : ((2 ^ Nat.log2 x.significand : Nat) : ℚ) ≤ x.significand := by
      exact_mod_cast Nat.log2_self_le h
    rw [← hk, zpow_add₀ two_ne_zero, zpow_natCast, magnitude]
    push_cast at this
    gcongr
  have hhigh : x.magnitude < 2 ^ (k + 1) := by
    have : (x.significand : ℚ) < (2 ^ (Nat.log2 x.significand + 1) : Nat) := by
      exact_mod_cast Nat.lt_log2_self
    rw [← hk, show (Nat.log2 x.significand : Int) + x.exponent + 1 =
      (Nat.log2 x.significand + 1 : Nat) + x.exponent by push_cast; ring, zpow_add₀ two_ne_zero,
      zpow_natCast, magnitude]
    push_cast at this
    gcongr
  unfold point
  simp only [hk]
  generalize k * 30103 / 100000 - 1 = least at *
  split
  · rename_i i hfind
    obtain ⟨hbelow, -, hprevious⟩ := List.find?_range_eq_some.mp hfind
    refine ⟨?_, below_iff.mp hbelow⟩
    rcases Nat.eq_zero_or_pos i with rfl | hi
    · simpa using hfirst.trans hlow
    · obtain ⟨j, rfl⟩ := Nat.exists_eq_add_one_of_ne_zero hi.ne'
      have hnot : ¬ x.below (least + (j : Nat)) = true := by
        simpa using hprevious j (Nat.lt_succ_self j)
      rw [below_iff, not_lt] at hnot
      rwa [show least + ((j + 1 : Nat) : Int) - 1 = least + (j : Nat) by push_cast; ring]
  · rename_i hfind
    have hnot := List.find?_eq_none.mp hfind 4 (by simp)
    exact absurd (below_iff.mpr (hhigh.trans_le hlast)) hnot

/-! ## One number of digits -/

theorem floorAt_spec (x : Binary64) (p : Int) :
    (x.floorAt p : ℚ) * 10 ^ p ≤ x.magnitude ∧ x.magnitude < (x.floorAt p + 1) * 10 ^ p := by
  have hd : 0 < x.denominator * tenPow p.toNat := Nat.mul_pos x.denominator_pos (tenPow_pos _)
  have hd' : (0 : ℚ) < (x.denominator * tenPow p.toNat : Nat) := by exact_mod_cast hd
  have hp := ten_zpow_pos p
  have hratio : x.magnitude / 10 ^ p =
      (x.numerator * tenPow (-p).toNat : Nat) / (x.denominator * tenPow p.toNat : Nat) := by
    rw [magnitude_eq_div, ten_zpow, div_div_div_eq]
    push_cast
    rfl
  constructor
  · rw [← le_div_iff₀ hp, hratio, le_div_iff₀ hd']
    exact_mod_cast Nat.div_mul_le_self _ _
  · rw [← div_lt_iff₀ hp, hratio, div_lt_iff₀ hd']
    have : x.numerator * tenPow (-p).toNat <
        (x.floorAt p + 1) * (x.denominator * tenPow p.toNat) := by
      rw [Nat.mul_comm (x.floorAt p + 1)]
      exact Nat.lt_mul_div_succ _ hd
    exact_mod_cast this

theorem hitAt_eq_some (h : x.significand ≠ 0) {p : Int} {c : Nat} (hit : x.hitAt p = some c) :
    x.Encloses (c * 10 ^ p) ∧ (c = x.floorAt p ∨ c = x.floorAt p + 1) := by
  unfold hitAt at hit
  simp only at hit
  split at hit
  · rename_i hlower hupper
    split at hit
    · cases hit
      exact ⟨(roundsHere_iff h).mp hlower, .inl rfl⟩
    · cases hit
      exact ⟨(roundsHere_iff h).mp hupper, .inr rfl⟩
  · rename_i hlower hupper
    cases hit
    exact ⟨(roundsHere_iff h).mp hlower, .inl rfl⟩
  · rename_i hlower hupper
    cases hit
    exact ⟨(roundsHere_iff h).mp hupper, .inr rfl⟩
  · cases hit

/-- Where one of the two multiples next to the number rounds to it, one of them is found. -/
theorem hitAt_isSome (h : x.significand ≠ 0) {p : Int} {c : Nat} (hc : x.Encloses (c * 10 ^ p))
    (hnext : c = x.floorAt p ∨ c = x.floorAt p + 1) : ∃ c', x.hitAt p = some c' := by
  rw [← roundsHere_iff h] at hc
  unfold hitAt
  simp only
  rcases hnext with rfl | rfl
  · rw [hc]
    cases x.roundsHere (x.floorAt p + 1) p with
    | true => exact ⟨_, rfl⟩
    | false => exact ⟨_, rfl⟩
  · rw [hc]
    cases x.roundsHere (x.floorAt p) p with
    | true => exact ⟨_, rfl⟩
    | false => exact ⟨_, rfl⟩

/-- The two multiples next to the number are the only ones less than a step away. -/
theorem next_of_abs_lt {p : Int} {c : Nat} (h : |(c : ℚ) * 10 ^ p - x.magnitude| < 10 ^ p) :
    c = x.floorAt p ∨ c = x.floorAt p + 1 := by
  obtain ⟨hlow, hhigh⟩ := x.floorAt_spec p
  have hp := ten_zpow_pos p
  obtain ⟨hleft, hright⟩ := abs_lt.mp h
  have hlt : x.floorAt p < c + 1 := by
    have : (x.floorAt p : ℚ) * 10 ^ p < (c + 1) * 10 ^ p := by linarith
    exact_mod_cast (mul_lt_mul_iff_of_pos_right hp).mp this
  have hgt : c < x.floorAt p + 2 := by
    have : (c : ℚ) * 10 ^ p < (x.floorAt p + 2) * 10 ^ p := by linarith
    exact_mod_cast (mul_lt_mul_iff_of_pos_right hp).mp this
  omega

/-- **With 17 digits there is always a multiple that rounds to the number.** -/
theorem exists_hit (hx : x.Finite) (h : x.significand ≠ 0) :
    ∃ c, x.hitAt (x.point - 17) = some c := by
  obtain ⟨hpoint, -⟩ := point_spec hx h
  obtain ⟨hlow, hhigh⟩ := x.floorAt_spec (x.point - 17)
  have hquarter := x.quarter_pos
  have hdigits : 10 ^ 16 * 10 ^ (x.point - 17) ≤ x.magnitude := by
    rw [← zpow_natCast, ← zpow_add₀ (by norm_num)]
    convert hpoint using 2
    push_cast
    ring
  have hsize : x.magnitude ≤ 2 ^ 55 * x.quarter := by
    have : (x.significand : ℚ) < 2 ^ precision := by exact_mod_cast hx.significand_lt
    unfold precision at this
    rw [magnitude_eq_quarter]
    gcongr
    linarith
  -- half a step stays within the rounding interval
  have hbelow : x.lowEnd < x.magnitude - 10 ^ (x.point - 17) / 2 := by
    unfold lowEnd
    split
    · rename_i hboundary
      have hpower : (x.significand : ℚ) = 2 ^ 52 := by rw [hboundary.1, cast_twoPow]
      rw [magnitude_eq_quarter, hpower] at hdigits
      linarith
    · linarith
  have habove : x.magnitude + 10 ^ (x.point - 17) / 2 < x.highEnd := by
    unfold highEnd
    linarith
  rcases le_total (x.magnitude - 10 ^ (x.point - 17) / 2)
    (x.floorAt (x.point - 17) * 10 ^ (x.point - 17)) with hnear | hnear
  · refine hitAt_isSome h ⟨.inl (by linarith), .inl (by linarith)⟩ (.inl rfl)
  · refine hitAt_isSome (c := x.floorAt (x.point - 17) + 1) h ?_ (.inr rfl)
    push_cast
    exact ⟨.inl (by linarith), .inl (by linarith)⟩

/-! ## The search -/

/-- A decade in steps of its `k + 1`-st digit. -/
theorem decade_eq (point : Int) (k : Nat) :
    (10 : ℚ) ^ (point - 1) = (10 ^ k : Nat) * 10 ^ (point - (k + 1 : Nat)) ∧
      (10 : ℚ) ^ point = (10 ^ (k + 1) : Nat) * 10 ^ (point - (k + 1 : Nat)) := by
  push_cast
  rw [← zpow_natCast, ← zpow_natCast, ← zpow_add₀ (by norm_num), ← zpow_add₀ (by norm_num)]
  constructor
  · congr 1
    ring
  · congr 1
    push_cast
    ring

theorem dropZeros_spec (fuel : Nat) {c : Nat} (p : Int) (hc : c ≠ 0) :
    (dropZeros fuel c p).1 ≠ 0 ∧ (dropZeros fuel c p).1 ≤ c ∧ p ≤ (dropZeros fuel c p).2 ∧
      ((dropZeros fuel c p).1 : ℚ) * 10 ^ (dropZeros fuel c p).2 = c * 10 ^ p := by
  induction fuel generalizing c p with
  | zero => exact ⟨hc, Nat.le_refl _, Int.le_refl _, rfl⟩
  | succ fuel ih =>
    unfold dropZeros
    split
    · rename_i hzero
      obtain ⟨k, rfl⟩ := Nat.dvd_of_mod_eq_zero hzero
      rw [Nat.mul_div_cancel_left k (by decide)]
      obtain ⟨hne, hle, hp, hvalue⟩ := ih (c := k) (p + 1) (by omega)
      refine ⟨hne, by omega, by omega, ?_⟩
      rw [hvalue, zpow_add_one₀ (by norm_num)]
      push_cast
      ring
    · exact ⟨hc, Nat.le_refl _, Int.le_refl _, rfl⟩

/-- What is found among the first numbers is found at the first of them that has it. -/
theorem exists_of_findSome?_range {α : Type} {f : Nat → Option α} {n : Nat} {b : α}
    (h : (List.range n).findSome? f = some b) : ∃ k < n, f k = some b ∧ ∀ j < k, f j = none := by
  induction n with
  | zero => cases h
  | succ n ih =>
    rw [List.range_succ, List.findSome?_append, Option.or_eq_some_iff] at h
    rcases h with h | ⟨hnone, h⟩
    · obtain ⟨k, hk, hspec⟩ := ih h
      exact ⟨k, Nat.lt_succ_of_lt hk, hspec⟩
    · refine ⟨n, Nat.lt_succ_self n, by simpa using h, fun j hj => ?_⟩
      exact List.findSome?_eq_none_iff.mp hnone j (List.mem_range.mpr hj)

/-- **The search ends with the first number of digits that has a hit.** -/
theorem shortest_spec (hx : x.Finite) (h : x.significand ≠ 0) :
    ∃ k c, k < 17 ∧ x.hitAt (x.point - (k + 1 : Nat)) = some c ∧
      (∀ j < k, x.hitAt (x.point - (j + 1 : Nat)) = none) ∧
      x.shortest = dropZeros 17 c (x.point - (k + 1 : Nat)) := by
  unfold shortest
  simp only [List.findSome?_map, Function.comp_def]
  split
  · rename_i c p hfind
    obtain ⟨k, hk, hhit, hnone⟩ := exists_of_findSome?_range hfind
    obtain ⟨c', hc', heq⟩ := Option.map_eq_some_iff.mp hhit
    cases heq
    exact ⟨k, c, hk, hc', fun j hj => Option.map_eq_none_iff.mp (hnone j hj), rfl⟩
  · rename_i hfind
    obtain ⟨c, hc⟩ := exists_hit hx h
    have := List.findSome?_eq_none_iff.mp hfind 16 (by simp)
    rw [Option.map_eq_none_iff] at this
    exact absurd (this.symm.trans hc) (by simp)

/-- The outcome has at most 17 digits and lies in the decade of the number or at its end. -/
theorem shortest_bounds (hx : x.Finite) (h : x.significand ≠ 0) :
    x.shortest.1 ≠ 0 ∧ x.shortest.1 ≤ 10 ^ 17 ∧ x.point - 17 ≤ x.shortest.2 ∧
      10 ^ (x.point - 1) ≤ (x.shortest.1 : ℚ) * 10 ^ x.shortest.2 ∧
      (x.shortest.1 : ℚ) * 10 ^ x.shortest.2 ≤ 10 ^ x.point := by
  obtain ⟨k, c, hk, hhit, -, hshortest⟩ := shortest_spec hx h
  obtain ⟨hfirst, hlast⟩ := point_spec hx h
  obtain ⟨hlow, hhigh⟩ := x.floorAt_spec (x.point - (k + 1 : Nat))
  obtain ⟨-, hnext⟩ := hitAt_eq_some h hhit
  have hstep := ten_zpow_pos (x.point - (k + 1 : Nat))
  obtain ⟨hdecade, hdecade'⟩ := decade_eq x.point k
  rw [hdecade] at hfirst
  rw [hdecade'] at hlast
  have hge : 10 ^ k ≤ x.floorAt (x.point - (k + 1 : Nat)) := by
    have := (mul_lt_mul_iff_of_pos_right hstep).mp (hfirst.trans_lt hhigh)
    exact Nat.le_of_lt_succ (by exact_mod_cast this)
  have hlt : x.floorAt (x.point - (k + 1 : Nat)) < 10 ^ (k + 1) := by
    exact_mod_cast (mul_lt_mul_iff_of_pos_right hstep).mp (hlow.trans_lt hlast)
  have hc : 10 ^ k ≤ c ∧ c ≤ 10 ^ (k + 1) := by omega
  have hne : c ≠ 0 := by
    have : 0 < 10 ^ k := by positivity
    omega
  obtain ⟨hne', hle, hp, hvalue⟩ := dropZeros_spec 17 (x.point - (k + 1 : Nat)) hne
  rw [hshortest, hvalue, hdecade, hdecade']
  have hdigits : 10 ^ (k + 1) ≤ 10 ^ 17 := Nat.pow_le_pow_right (by decide) hk
  refine ⟨hne', by omega, by omega, ?_, ?_⟩
  · exact mul_le_mul_of_nonneg_right (by exact_mod_cast hc.1) hstep.le
  · exact mul_le_mul_of_nonneg_right (by exact_mod_cast hc.2) hstep.le

/-! ## Few digits -/

theorem Encloses.abs_sub_le {q : ℚ} (h : x.Encloses q) : |q - x.magnitude| ≤ 2 * x.quarter := by
  have hlow := h.low_le
  have hhigh := h.le_high
  have hquarter := x.quarter_pos
  unfold lowEnd at hlow
  unfold highEnd at hhigh
  have : (if x.IsBoundary then (1 : ℚ) else 2) * x.quarter ≤ 2 * x.quarter := by
    refine mul_le_mul_of_nonneg_right ?_ hquarter.le
    split <;> norm_num
  exact abs_le.mpr ⟨by linarith, by linarith⟩

/-- Of multiples whose step is longer than the rounding interval only one rounds to `x`. -/
theorem Encloses.eq_of_step {p : Int} {a b : Nat} (ha : x.Encloses (a * 10 ^ p))
    (hb : x.Encloses (b * 10 ^ p)) (hstep : 4 * x.quarter < 10 ^ p) : a = b := by
  obtain ⟨hlow, hhigh⟩ := abs_le.mp ha.abs_sub_le
  obtain ⟨hlow', hhigh'⟩ := abs_le.mp hb.abs_sub_le
  have hab : (a : ℚ) * 10 ^ p < (b + 1) * 10 ^ p := by linarith
  have hba : (b : ℚ) * 10 ^ p < (a + 1) * 10 ^ p := by linarith
  rw [mul_lt_mul_iff_of_pos_right (ten_zpow_pos p)] at hab hba
  exact Nat.le_antisymm (Nat.le_of_lt_succ (by exact_mod_cast hab))
    (Nat.le_of_lt_succ (by exact_mod_cast hba))

theorem magnitude_ge_quarters (hfull : 2 ^ 52 ≤ x.significand) :
    2 ^ 54 * x.quarter ≤ x.magnitude := by
  have : ((2 ^ 52 : Nat) : ℚ) ≤ x.significand := by exact_mod_cast hfull
  rw [magnitude_eq_quarter]
  refine mul_le_mul_of_nonneg_right ?_ x.quarter_pos.le
  push_cast at this
  linarith

/-- A number of at most 15 digits that rounds to `x` has all its digits at a place that the search
tries, or would try, and whose step is longer than the rounding interval. -/
theorem exists_place (hx : x.Finite) (hfull : 2 ^ 52 ≤ x.significand) {n : Nat} {e : Int}
    (hn : n < 10 ^ 15) (hencloses : x.Encloses (n * 10 ^ e)) :
    ∃ k i : Nat, e = x.point - (k + 1 : Nat) + i ∧
      4 * x.quarter < 10 ^ (x.point - (k + 1 : Nat)) := by
  have hsize := magnitude_ge_quarters hfull
  have hquarter := x.quarter_pos
  rcases Int.lt_or_le (x.point - 1) e with hlarge | hsmall
  · refine ⟨0, (e - (x.point - 1)).toNat, by omega, ?_⟩
    have hlast : x.magnitude < 10 * 10 ^ (x.point - 1) := by
      rw [← zpow_one_add₀ (by norm_num), add_sub_cancel]
      exact (point_spec hx (by omega)).2
    show 4 * x.quarter < 10 ^ (x.point - 1)
    linarith
  · refine ⟨(x.point - 1 - e).toNat, 0, by omega, ?_⟩
    rw [show x.point - ((x.point - 1 - e).toNat + 1 : Nat) = e by omega]
    have hbound : (n : ℚ) * 10 ^ e < 10 ^ 15 * 10 ^ e :=
      mul_lt_mul_of_pos_right (by exact_mod_cast hn) (ten_zpow_pos e)
    obtain ⟨hlow, -⟩ := abs_le.mp hencloses.abs_sub_le
    linarith

/-- A multiple of a power of ten is one of each lower power. -/
theorem mul_zpow_add (n i : Nat) (p : Int) :
    (n : ℚ) * 10 ^ (p + i) = (n * 10 ^ i : Nat) * 10 ^ p := by
  rw [zpow_add₀ (by norm_num), zpow_natCast]
  push_cast
  ring

/-- **A number of at most 15 digits that rounds to `x` is what the search finds.** -/
theorem shortest_of_encloses (hx : x.Finite) (hfull : 2 ^ 52 ≤ x.significand) {n : Nat} {e : Int}
    (hn : n < 10 ^ 15) (hencloses : x.Encloses (n * 10 ^ e)) :
    (x.shortest.1 : ℚ) * 10 ^ x.shortest.2 = n * 10 ^ e := by
  have h : x.significand ≠ 0 := by omega
  have hsize := magnitude_ge_quarters hfull
  have hquarter := x.quarter_pos
  obtain ⟨k, i, hplace, hstep⟩ := exists_place hx hfull hn hencloses
  rw [hplace, mul_zpow_add] at hencloses ⊢
  -- the search comes to that place, unless it ends before
  obtain ⟨j, c, hj, hhit, hnone, hshortest⟩ := shortest_spec hx h
  have hjk : j ≤ k := by
    by_contra hlt
    obtain ⟨c', hc'⟩ := hitAt_isSome h hencloses
      (next_of_abs_lt (hencloses.abs_sub_le.trans_lt (by linarith)))
    rw [hnone k (not_le.mp hlt)] at hc'
    cases hc'
  obtain ⟨hfound, -⟩ := hitAt_eq_some h hhit
  have hc : c ≠ 0 := by
    rintro rfl
    obtain ⟨hlow, -⟩ := abs_le.mp hfound.abs_sub_le
    rw [Nat.cast_zero, zero_mul] at hlow
    linarith
  obtain ⟨-, -, -, hvalue⟩ := dropZeros_spec 17 (x.point - (j + 1 : Nat)) hc
  obtain ⟨l, rfl⟩ := Nat.exists_eq_add_of_le hjk
  have hlower : x.point - (j + 1 : Nat) = x.point - (j + l + 1 : Nat) + l := by omega
  have hdigits : (c : ℚ) * 10 ^ (x.point - (j + 1 : Nat)) =
      (c * 10 ^ l : Nat) * 10 ^ (x.point - (j + l + 1 : Nat)) := by
    rw [hlower, mul_zpow_add]
  rw [hdigits] at hfound hvalue
  rw [hshortest, hvalue, hfound.eq_of_step hencloses hstep]

end SpotGateway.Binary64
