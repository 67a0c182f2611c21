import SpotGateway.Proofs.Decimal.Product

/-!
# Quotients of decimals

Long division in chunks of digits ends with the decimal nearest to the exact quotient, and faults
exactly if there is none.

* `Decimal.Quotient.Tracks` — the division under way: digits and rest together are the quotient;
* `Decimal.Quotient.Settles` — what it ends with;
* `Decimal.Quotient.settles_round`, `Decimal.Quotient.settles_shorten` — its last step;
* `Decimal.Quotient.Advances`, `Decimal.Quotient.advances` — what one chunk of digits leads to;
* `Decimal.Quotient.settles_expand` — all chunks, and `Decimal.Quotient.Settled.tidy` — the digits
  that are shown of them;
* `Decimal.computes_div` — quotients.
-/

set_option autoImplicit false

namespace SpotGateway.Decimal

open Binary64 (IsNearest)

namespace Quotient

variable {q : Quotient} {divisor : Nat} {x : ℚ}

/-- A division under way that is to end with `x`: what the digits leave out is the rest over the
divisor. -/
structure Tracks (q : Quotient) (divisor : Nat) (x : ℚ) : Prop where
  rest_lt : q.rest < divisor
  digits_lt : q.digits < coefficientLimit
  scale_le : q.scale ≤ maxScale
  units : x * 10 ^ q.scale = q.digits + (q.rest : ℚ) / divisor

/-- A division that has ended with the decimal nearest to `x`. -/
structure Settled (q : Quotient) (x : ℚ) : Prop where
  digits_lt : q.digits < coefficientLimit
  scale_nonneg : 0 ≤ q.scale
  scale_le : q.scale ≤ maxScale
  nearest : Nearest x (q.digits / 10 ^ q.scale)

/-- How a division ends whose exact result is `x`, which is not negative. -/
def Settles (x : ℚ) : Option Quotient → Prop
  | some q => q.Settled x
  | none => (coefficientLimit : ℚ) - 1 / 2 ≤ x

theorem Settled.of_rounds {k : Nat} (hx : 0 ≤ x) (hscale : q.scale = k) (h : Rounds x q.digits k) :
    q.Settled x where
  digits_lt := h.lt
  scale_nonneg := by omega
  scale_le := by
    have := h.scale_le
    omega
  nearest := by
    rw [hscale, zpow_natCast]
    exact .of_nonneg hx h

namespace Tracks

theorem fraction_nonneg (q : Quotient) (divisor : Nat) : (0 : ℚ) ≤ q.rest / divisor := by positivity

theorem nonneg (h : q.Tracks divisor x) : 0 ≤ x := by
  have hunits : 0 ≤ x * 10 ^ q.scale := by
    rw [h.units]
    positivity
  exact nonneg_of_mul_nonneg_left hunits (ten_zpow_pos _)

theorem digits_le (h : q.Tracks divisor x) : (q.digits : ℚ) ≤ x * 10 ^ q.scale := by
  rw [h.units]
  exact le_add_of_nonneg_right (fraction_nonneg q divisor)

/-- The next `s` digits of the quotient, and the rest they leave. -/
theorem units_add (h : q.Tracks divisor x) (s : Nat) :
    x * 10 ^ (q.scale + s) =
      (q.digits * tenPow s + q.rest * tenPow s / divisor : Nat) +
        ((q.rest * tenPow s % divisor : Nat) : ℚ) / divisor := by
  have hpos : (0 : ℚ) < divisor := by exact_mod_cast Nat.zero_lt_of_lt h.rest_lt
  have hrest : (q.rest : ℚ) * 10 ^ s =
      divisor * (q.rest * tenPow s / divisor : Nat) + (q.rest * tenPow s % divisor : Nat) := by
    rw [← cast_tenPow]
    exact_mod_cast (Nat.div_add_mod _ _).symm
  calc x * 10 ^ (q.scale + s) = x * 10 ^ q.scale * 10 ^ s := by
        rw [zpow_add₀ (by norm_num), zpow_natCast, mul_assoc]
    _ = q.digits * 10 ^ s + q.rest * 10 ^ s / divisor := by
        rw [h.units]
        ring
    _ = _ := by
        rw [hrest, Nat.cast_add, Nat.cast_mul, cast_tenPow]
        field_simp
        ring

/-- Digits before the point that do not fit are too large, as those behind it only add to them. -/
theorem overflow (h : q.Tracks divisor x) {p : Int} (hp : p ≤ 0) {digits rest : Nat}
    (hunits : x * 10 ^ p = digits + (rest : ℚ) / divisor) (hlarge : coefficientLimit ≤ digits) :
    (coefficientLimit : ℚ) - 1 / 2 ≤ x := by
  have hle : x * 10 ^ p ≤ x :=
    mul_le_of_le_one_right h.nonneg (zpow_le_one_of_nonpos₀ (by norm_num) hp)
  have hlarge : (coefficientLimit : ℚ) ≤ digits := by exact_mod_cast hlarge
  have hrest : (0 : ℚ) ≤ rest / divisor := by positivity
  linarith

theorem padded (h : q.Tracks divisor x) :
    ({ q with padded := true } : Quotient).Tracks divisor x :=
  ⟨h.rest_lt, h.digits_lt, h.scale_le, h.units⟩

end Tracks

/-! ## The last step -/

/-- What is left over decides about the last digit. -/
theorem nearest_round (h : q.Tracks divisor x) :
    IsNearest (if divisor < 2 * q.rest ∨ (2 * q.rest = divisor ∧ q.digits % 2 = 1)
      then q.digits + 1 else q.digits) (x * 10 ^ q.scale) := by
  have hpos : 0 < divisor := Nat.zero_lt_of_lt h.rest_lt
  have hdiv : (q.digits * divisor + q.rest) / divisor = q.digits := by
    rw [Nat.mul_comm, Nat.mul_add_div hpos, Nat.div_eq_of_lt h.rest_lt, Nat.add_zero]
  have hmod : (q.digits * divisor + q.rest) % divisor = q.rest := by
    rw [Nat.mul_comm, Nat.mul_add_mod, Nat.mod_eq_of_lt h.rest_lt]
  have hvalue : ((q.digits * divisor + q.rest : Nat) : ℚ) / divisor = x * 10 ^ q.scale := by
    have : (divisor : ℚ) ≠ 0 := by positivity
    rw [h.units]
    push_cast
    field_simp
  have := Binary64.nearestEven_near (n := q.digits * divisor + q.rest) hpos
  rwa [hvalue, Binary64.nearestEven, hdiv, hmod] at this

/-- Where one more than the last number that fits is nearest, it is with one digit less too: the
last digit of the limit is above the middle. -/
theorem rounds_of_limit {k : Nat} (hk : k ≤ maxScale)
    (h : IsNearest coefficientLimit (x * 10 ^ (k + 1))) :
    Rounds x (coefficientLimit / 10 + 1) k := by
  have hbounds := h.bounds
  refine ⟨hk, by decide, ?_, .inr hbounds.1⟩
  have htens : (coefficientLimit : ℚ) = 10 * (coefficientLimit / 10 : Nat) + 6 := by
    exact_mod_cast coefficientLimit_eq
  rw [pow_succ, ← mul_assoc, htens] at hbounds
  exact .of_abs_lt (by push_cast; linarith) (by push_cast; linarith)

/-- Rounding up adds one to the last digit, or drops that digit. -/
theorem settles_increment {k : Nat} (hx : 0 ≤ x) (hscale : q.scale = k) (hle : k ≤ maxScale)
    (hdigits : q.digits < coefficientLimit) (hnear : IsNearest (q.digits + 1) (x * 10 ^ k))
    (hfull : k = maxScale ∨ (coefficientLimit : ℚ) - 1 / 2 ≤ x * 10 ^ (k + 1)) :
    Settles x q.increment := by
  unfold increment
  split
  · rename_i hfits
    exact .of_rounds hx hscale ⟨hle, hfits, hnear, hfull⟩
  · have hlimit : q.digits + 1 = coefficientLimit := by omega
    rw [hlimit] at hnear ⊢
    split
    · obtain rfl : k = 0 := by omega
      rw [pow_zero, mul_one] at hnear
      exact hnear.bounds.1
    · obtain ⟨j, rfl⟩ : ∃ j, k = j + 1 := ⟨k - 1, by omega⟩
      have hshort : halfEven coefficientLimit 1 = coefficientLimit / 10 + 1 := by decide
      rw [hshort]
      exact .of_rounds (k := j) hx (by simp only; omega) (rounds_of_limit (by omega) hnear)

/-- The division may end where no further digit fits. -/
theorem settles_round (h : q.Tracks divisor x) (hscale : 0 ≤ q.scale)
    (hfull : q.scale = maxScale ∨ coefficientLimit ≤ q.digits * 10) :
    Settles x (q.round divisor) := by
  obtain ⟨k, hk⟩ := Int.eq_ofNat_of_zero_le hscale
  have hle : k ≤ maxScale := by
    have := h.scale_le
    omega
  have hnear := nearest_round h
  have hdigits := h.digits_le
  rw [hk, zpow_natCast] at hnear hdigits
  have hfull : k = maxScale ∨ (coefficientLimit : ℚ) - 1 / 2 ≤ x * 10 ^ (k + 1) := by
    refine hfull.imp (fun hfull => by omega) fun hlarge => ?_
    have hlarge : (coefficientLimit : ℚ) ≤ q.digits * 10 := by exact_mod_cast hlarge
    rw [pow_succ]
    linarith
  unfold round
  split
  · rename_i hup
    rw [if_pos hup] at hnear
    exact settles_increment h.nonneg hk hle h.digits_lt hnear hfull
  · rename_i hdown
    rw [if_neg hdown] at hnear
    exact .of_rounds h.nonneg hk ⟨hle, h.digits_lt, hnear, hfull⟩

/-- Dropping the last digit rounds to the nearest number that is left. -/
theorem nearest_shorten {digits : Nat} {sticky : Bool} {f : ℚ} (hnonneg : 0 ≤ f) (hlt : f < 1)
    (hsticky : sticky = true ↔ f ≠ 0) : IsNearest (shorten digits sticky) ((digits + f) / 10) := by
  have hdigits : (digits : ℚ) = 10 * (digits / 10 : Nat) + (digits % 10 : Nat) := by
    exact_mod_cast (Nat.div_add_mod digits 10).symm
  have hlast : digits % 10 < 10 := Nat.mod_lt _ (by decide)
  rw [hdigits]
  unfold shorten
  generalize digits / 10 = c
  generalize digits % 10 = r at hlast
  simp only
  have hr : (0 : ℚ) ≤ r := by positivity
  have hr' : (r : ℚ) ≤ 9 := by exact_mod_cast Nat.le_of_lt_succ hlast
  rcases Nat.lt_trichotomy r 5 with hbelow | rfl | habove
  · have hbelow' : (r : ℚ) + 1 ≤ 5 := by exact_mod_cast hbelow
    rw [if_neg (by omega)]
    exact .of_abs_lt (by linarith) (by linarith)
  · by_cases hf : f = 0
    · -- exactly the middle
      have hnot : sticky = false := by
        rw [← Bool.not_eq_true, hsticky]
        exact not_not_intro hf
      subst hf hnot
      rcases Nat.mod_two_eq_zero_or_one c with heven | hodd
      · rw [if_neg (by simp [heven])]
        exact ⟨.inl (by push_cast; linarith), .inr ⟨heven, by push_cast; ring⟩⟩
      · rw [if_pos (by simp [hodd])]
        exact ⟨.inr ⟨by omega, by push_cast; ring⟩, .inl (by push_cast; linarith)⟩
    · have hpos : 0 < f := lt_of_le_of_ne hnonneg (Ne.symm hf)
      rw [if_pos (by simp [hsticky.mpr hf])]
      push_cast
      exact .of_abs_lt (by push_cast; linarith) (by push_cast; linarith)
  · have habove' : (6 : ℚ) ≤ r := by exact_mod_cast habove
    rw [if_pos (.inl habove)]
    exact .of_abs_lt (by push_cast; linarith) (by push_cast; linarith)

/-- The division may end with digits that outgrew the 96 bits, one of them dropped. -/
theorem settles_shorten {digits rest : Nat} {scale : Int} {padded : Bool} (hx : 0 ≤ x)
    (hrest : rest < divisor) (hlarge : coefficientLimit ≤ digits)
    (hbound : digits < coefficientLimit + tenPow 9) (hpos : 0 < scale) (hle : scale ≤ maxScale)
    (hunits : x * 10 ^ scale = digits + (rest : ℚ) / divisor) :
    Settled ⟨shorten digits (rest ≠ 0), 0, scale - 1, padded⟩ x := by
  obtain ⟨k, rfl⟩ : ∃ k : Nat, scale = (k + 1 : Nat) := ⟨(scale - 1).toNat, by omega⟩
  have hdivisor : (0 : ℚ) < divisor := by exact_mod_cast Nat.zero_lt_of_lt hrest
  have hlt : (rest : ℚ) / divisor < 1 := by
    rw [div_lt_one hdivisor]
    exact_mod_cast hrest
  have hnonneg : (0 : ℚ) ≤ rest / divisor := by positivity
  rw [zpow_natCast] at hunits
  have hnear : IsNearest (shorten digits (rest ≠ 0)) (x * 10 ^ k) := by
    have hk : x * 10 ^ k = (digits + (rest : ℚ) / divisor) / 10 := by
      rw [← hunits, pow_succ]
      field_simp
    rw [hk]
    refine nearest_shorten hnonneg hlt ?_
    rw [decide_eq_true_iff, ne_eq, ne_eq, div_eq_zero_iff, or_iff_left hdivisor.ne',
      Nat.cast_eq_zero]
  refine .of_rounds (k := k) hx (by simp) ⟨by omega, ?_, hnear, .inr ?_⟩
  · have hshort : shorten digits (rest ≠ 0) ≤ digits / 10 + 1 := by
      unfold shorten
      simp only
      split <;> omega
    have hlimit : (coefficientLimit + tenPow 9) / 10 + 1 < coefficientLimit := by decide
    have : digits / 10 ≤ (coefficientLimit + tenPow 9) / 10 := Nat.div_le_div_right hbound.le
    simp only
    omega
  · have : (coefficientLimit : ℚ) ≤ digits := by exact_mod_cast hlarge
    rw [hunits]
    linarith

/-! ## Chunks of digits -/

/-- The last number below a bound that passes a test which zero passes. -/
theorem find?_reverse_range {p : Nat → Bool} (hzero : p 0 = true) (most : Nat) :
    ∃ s ≤ most, ((List.range (most + 1)).reverse.find? p).getD 0 = s ∧ p s = true ∧
      ∀ t ≤ most, s < t → p t = false := by
  induction most with
  | zero => exact ⟨0, Nat.le_refl 0, by simp [hzero], hzero, fun t ht hlt => by omega⟩
  | succ most ih =>
    rw [List.range_succ, List.reverse_append, List.reverse_singleton, List.singleton_append,
      List.find?_cons]
    cases hlast : p (most + 1) with
    | true => exact ⟨most + 1, Nat.le_refl _, rfl, hlast, fun t ht hlt => by omega⟩
    | false =>
      obtain ⟨s, hs, hfind, hp, hafter⟩ := ih
      refine ⟨s, by omega, hfind, hp, fun t ht hlt => ?_⟩
      rcases Nat.eq_or_lt_of_le ht with rfl | ht
      · exact hlast
      · exact hafter t (by omega) hlt

/-- A chunk takes nine digits, or as many as the scale has room for, or as many as fit. -/
theorem room_spec (hdigits : q.digits < coefficientLimit) (hscale : q.scale ≤ maxScale) :
    q.room ≤ 9 ∧ q.scale + q.room ≤ maxScale ∧ q.digits * tenPow q.room < coefficientLimit ∧
      (q.room = 9 ∨ q.scale + q.room = maxScale ∨
        coefficientLimit ≤ q.digits * tenPow q.room * 10) := by
  have hzero : decide (q.digits * tenPow 0 < coefficientLimit) = true :=
    decide_eq_true ((Nat.mul_one q.digits).symm ▸ hdigits)
  obtain ⟨s, hs, hroom, hfits, hafter⟩ := find?_reverse_range
    (p := fun s => decide (q.digits * tenPow s < coefficientLimit)) hzero
    (min 9 ((maxScale : Int) - q.scale).toNat)
  have hroom : q.room = s := hroom
  rw [hroom]
  refine ⟨by omega, by omega, of_decide_eq_true hfits, ?_⟩
  by_cases hmost : s = min 9 ((maxScale : Int) - q.scale).toNat
  · omega
  · right
    right
    have := of_decide_eq_false (hafter (s + 1) (by omega) (Nat.lt_succ_self s))
    rw [tenPow_succ, ← Nat.mul_assoc] at this
    omega

/-- No chunk follows: the division is exact, or no further digit fits. -/
def Ready (q : Quotient) : Prop :=
  0 ≤ q.scale ∧ (q.rest = 0 ∨ q.scale = maxScale ∨ coefficientLimit ≤ q.digits * 10)

/-- What one chunk leads to: the division ends, rightly, or it goes on with more digits of the same
quotient, nine more or as many as there is any use for. -/
def Advances (q : Quotient) (divisor : Nat) (x : ℚ) : Prop :=
  (∀ fuel, Settles x (q.expand divisor (fuel + 1))) ∨
    ¬ q.Ready ∧ ∃ next : Quotient, next.Tracks divisor x ∧
      (∀ fuel, q.expand divisor (fuel + 1) = next.expand divisor fuel) ∧
      (next.scale = q.scale + 9 ∨ next.Ready)

/-- With nothing left over, zeros are appended up to the point. -/
theorem advances_of_exact (h : q.Tracks divisor x) (hrest : q.rest = 0) :
    q.Advances divisor x := by
  by_cases hscale : 0 ≤ q.scale
  · left
    intro fuel
    rw [expand, if_pos hrest, if_pos hscale]
    refine ⟨h.digits_lt, hscale, h.scale_le, ?_⟩
    obtain ⟨k, hk⟩ := Int.eq_ofNat_of_zero_le hscale
    have hle : k ≤ maxScale := by
      have := h.scale_le
      omega
    have hx : x = q.digits / 10 ^ q.scale := by
      rw [eq_div_iff (ten_zpow_pos _).ne', h.units, hrest, Nat.cast_zero, zero_div, add_zero]
    have hholds : Holds ((q.digits : ℚ) / 10 ^ q.scale) := by
      have := holds_of_digits false h.digits_lt hle
      rwa [signOf, if_neg (by decide), one_mul, ← zpow_natCast, ← hk] at this
    rw [hx]
    exact .of_holds hholds
  · obtain ⟨s, hs⟩ : ∃ s, s = min 9 (-q.scale).toNat := ⟨_, rfl⟩
    have hunits := h.units_add s
    rw [hrest, Nat.zero_mul, Nat.zero_div, Nat.zero_mod, Nat.add_zero] at hunits
    by_cases hfits : q.digits * tenPow s < coefficientLimit
    · right
      refine ⟨fun hready => hscale hready.1,
        { q with digits := q.digits * tenPow s, scale := q.scale + (s : Int) },
        ⟨h.rest_lt, hfits, by simp only; omega, by rw [hunits, hrest]⟩, fun fuel => ?_, ?_⟩
      · rw [expand, if_pos hrest, if_neg hscale]
        simp only [← hs, hfits, if_true]
      · rcases Nat.lt_or_ge s 9 with hshort | hlong
        · exact .inr ⟨by simp only; omega, .inl hrest⟩
        · exact .inl (by simp only; omega)
    · left
      intro fuel
      rw [expand, if_pos hrest, if_neg hscale]
      simp only [← hs, hfits, if_false]
      exact h.overflow (by omega) hunits (Nat.le_of_not_lt hfits)

theorem mul_ten_le (n : Nat) {s : Nat} (hs : s ≠ 0) : n * 10 ≤ n * tenPow s :=
  Nat.mul_le_mul_left n
    (Nat.pow_le_pow_right (n := 10) (i := 1) (by decide) (Nat.pos_of_ne_zero hs))

/-- With something left over and no room for a digit, the last digit is rounded. -/
theorem settles_of_ready (h : q.Tracks divisor x) (hrest : q.rest ≠ 0) (hready : q.Ready)
    (fuel : Nat) : Settles x (q.expand divisor (fuel + 1)) := by
  obtain ⟨hscale, hfull⟩ := hready
  have hfull := hfull.resolve_left hrest
  have hround := settles_round h.padded hscale hfull
  rw [expand, if_neg hrest]
  by_cases hlast : q.scale = maxScale
  · rw [if_pos hlast]
    exact hround
  · obtain ⟨-, -, hfits, -⟩ := room_spec h.digits_lt h.scale_le
    have hnone : ({ q with padded := true } : Quotient).room = 0 := by
      have hroom : ({ q with padded := true } : Quotient).room = q.room := rfl
      rw [hroom]
      by_contra hsome
      have := mul_ten_le q.digits hsome
      omega
    simp only [hlast, hnone, if_true, if_false]
    rw [if_neg (by omega)]
    exact hround

/-- With something left over and room for digits, as many are appended as there is room for. -/
theorem advances_of_chunk (h : q.Tracks divisor x) (hrest : q.rest ≠ 0) (hnot : ¬ q.Ready)
    (hwhole : ¬ (q.room < 9 ∧ q.scale + q.room < 0)) : q.Advances divisor x := by
  obtain ⟨hnine, hroomy, hfits, hmost⟩ := room_spec h.digits_lt h.scale_le
  have hroom : ({ q with padded := true } : Quotient).room = q.room := rfl
  generalize q.room = s at hnine hroomy hfits hmost hroom hwhole
  have hlast : q.scale ≠ maxScale := fun hlast => hnot ⟨by omega, .inr (.inl hlast)⟩
  have hsome : s ≠ 0 := by
    rintro rfl
    have hone : tenPow 0 = 1 := rfl
    rw [hone, Nat.mul_one] at hmost
    exact hnot ⟨by omega, .inr (.inr (by omega))⟩
  have hexpand : ∀ fuel, q.expand divisor (fuel + 1) =
      if q.digits * tenPow s + q.rest * tenPow s / divisor < coefficientLimit then
        expand divisor fuel ⟨q.digits * tenPow s + q.rest * tenPow s / divisor,
          q.rest * tenPow s % divisor, q.scale + s, true⟩
      else if q.scale + s ≤ 0 then none
      else some ⟨shorten (q.digits * tenPow s + q.rest * tenPow s / divisor)
        (q.rest * tenPow s % divisor ≠ 0), 0, q.scale + s - 1, true⟩ := by
    intro fuel
    rw [expand, if_neg hrest]
    simp only [hlast, hroom, hwhole, hsome, if_false]
  have hpos : 0 < divisor := Nat.zero_lt_of_lt h.rest_lt
  have hunits := h.units_add s
  have hmore : q.rest * tenPow s / divisor < tenPow s := by
    rw [Nat.div_lt_iff_lt_mul hpos, Nat.mul_comm (tenPow s)]
    exact Nat.mul_lt_mul_of_pos_right h.rest_lt (tenPow_pos s)
  have hsmall : tenPow s ≤ tenPow 9 := Nat.pow_le_pow_right (by decide) hnine
  have hleft : q.rest * tenPow s % divisor < divisor := Nat.mod_lt _ hpos
  generalize q.rest * tenPow s / divisor = more at hexpand hunits hmore
  generalize hnext : q.digits * tenPow s + more = digits at hexpand hunits
  by_cases hdigits : digits < coefficientLimit
  · right
    simp only [hdigits, if_true] at hexpand
    refine ⟨hnot, _, ⟨hleft, hdigits, hroomy, hunits⟩, hexpand, ?_⟩
    rcases Nat.lt_or_ge s 9 with hshort | hlong
    · exact .inr ⟨by simp only; omega, .inr (by simp only; omega)⟩
    · exact .inl (by simp only; omega)
  · left
    intro fuel
    rw [hexpand, if_neg hdigits]
    split
    · rename_i hscale
      exact h.overflow hscale hunits (Nat.le_of_not_lt hdigits)
    · exact settles_shorten h.nonneg hleft (Nat.le_of_not_lt hdigits) (by omega) (by omega) hroomy
        hunits

/-- With something left over, digits are appended as long as they fit. -/
theorem advances_of_inexact (h : q.Tracks divisor x) (hrest : q.rest ≠ 0) :
    q.Advances divisor x := by
  by_cases hready : q.Ready
  · exact .inl (settles_of_ready h hrest hready)
  by_cases hwhole : q.room < 9 ∧ q.scale + q.room < 0
  · -- the next digit is before the point and does not fit
    left
    intro fuel
    obtain ⟨-, -, -, hmost⟩ := room_spec h.digits_lt h.scale_le
    have hlast : q.scale ≠ maxScale := by omega
    have hroom : ({ q with padded := true } : Quotient).room = q.room := rfl
    rw [expand, if_neg hrest]
    simp only [hlast, hroom, hwhole, and_self, if_true, if_false]
    refine h.overflow (by omega) (h.units_add (q.room + 1)) ?_
    rw [tenPow_succ, ← Nat.mul_assoc]
    exact Nat.le_add_right_of_le (by omega)
  · exact advances_of_chunk h hrest hready hwhole

theorem advances (h : q.Tracks divisor x) : q.Advances divisor x := by
  by_cases hrest : q.rest = 0
  · exact advances_of_exact h hrest
  · exact advances_of_inexact h hrest

/-- **How a division ends.**  By induction on the number of chunks: each but the last takes nine
digits, of which there are at most as many as the scale has room for. -/
theorem settles_expand (fuel : Nat) (h : q.Tracks divisor x)
    (hfuel : q.Ready ∨ maxScale - q.scale ≤ 9 * fuel) :
    Settles x (q.expand divisor (fuel + 1)) := by
  induction fuel generalizing q with
  | zero =>
    rcases advances h with hends | ⟨hnot, -⟩
    · exact hends 0
    · -- the scale is used up, so that no further chunk follows
      have hle := h.scale_le
      refine absurd (hfuel.elim id fun hscale => ⟨?_, .inr (.inl ?_)⟩) hnot <;> omega
  | succ fuel ih =>
    rcases advances h with hends | ⟨hnot, next, hnext, hexpand, hprogress⟩
    · exact hends (fuel + 1)
    · rw [hexpand]
      refine ih hnext (hprogress.symm.imp id fun hscale => ?_)
      have := hfuel.resolve_left hnot
      omega

/-! ## The digits that are shown -/

theorem Settled.strip (h : q.Settled x) (k bits : Nat) : (q.strip k bits).Settled x := by
  unfold Quotient.strip
  split
  · rename_i hzeros
    obtain ⟨-, hscale, hmod⟩ := hzeros
    have hdigits : (q.digits : ℚ) = (q.digits / tenPow k : Nat) * 10 ^ k := by
      rw [← cast_tenPow]
      exact_mod_cast (Nat.div_mul_cancel (Nat.dvd_of_mod_eq_zero hmod)).symm
    have hnonneg := h.scale_nonneg
    have hle := h.scale_le
    refine ⟨(Nat.div_le_self _ _).trans_lt h.digits_lt, by simp only; omega,
      by simp only; omega, ?_⟩
    have hvalue : ((q.digits / tenPow k : Nat) : ℚ) / 10 ^ (q.scale - k) =
        q.digits / 10 ^ q.scale := by
      have := (ten_zpow_pos q.scale).ne'
      rw [hdigits, zpow_sub₀ (by norm_num), zpow_natCast]
      field_simp
    rw [hvalue]
    exact h.nearest
  · exact h

theorem Settled.tidy (h : q.Settled x) : q.tidy.Settled x :=
  (((((h.strip 8 32).strip 8 32).strip 8 32).strip 4 4).strip 2 2).strip 1 1

/-- The digits with a sign are a decimal. -/
theorem Settled.make? (h : q.Settled x) (hx : 0 ≤ x) (negative : Bool) :
    ∃ d, make? (if negative then -(q.digits : Int) else q.digits) q.scale.toNat = some d ∧
      Nearest (signOf negative * x) d.value := by
  obtain ⟨k, hk⟩ := Int.eq_ofNat_of_zero_le h.scale_nonneg
  have hscale : q.scale.toNat = k := by omega
  have hle : k ≤ maxScale := by
    have := h.scale_le
    omega
  have habs : (if negative then -(q.digits : Int) else q.digits).natAbs = q.digits := by
    split <;> simp
  obtain ⟨d, hd⟩ : ∃ d, Decimal.make? (if negative then -(q.digits : Int) else q.digits) k =
      some d := signed?_isSome _ (habs.trans_lt h.digits_lt) hle
  have hvalue : d.value = signOf negative * (q.digits / 10 ^ q.scale) := by
    rw [value_of_make? hd, hk, zpow_natCast]
    cases negative <;> simp [signOf, neg_div]
  refine ⟨d, hscale ▸ hd, ?_⟩
  rw [hvalue]
  exact h.nearest.signOf_mul hx negative

end Quotient

/-- **The quotient is the decimal nearest to the exact quotient.** -/
theorem computes_div {a b : Decimal} (hb : b.isZero = false) :
    Computes (a.value / b.value) (a.div b) := by
  unfold div
  rw [if_neg (by simp [hb])]
  by_cases ha : a.isZero = true
  · rw [if_pos ha, value_eq_zero_iff.mpr ha, zero_div, ← value_zero]
    exact Nearest.of_holds ⟨zero, rfl⟩
  rw [if_neg ha]
  have hpos : 0 < b.magnitude := by
    simp only [isZero, beq_eq_false_iff_ne] at hb
    exact Nat.pos_of_ne_zero hb
  have hpos' : (0 : ℚ) < b.magnitude := by exact_mod_cast hpos
  -- the quotient without its sign
  obtain ⟨x, hx⟩ : ∃ x : ℚ,
      x = (a.magnitude : ℚ) / b.magnitude * 10 ^ ((b.scale : Int) - a.scale) := ⟨_, rfl⟩
  have hexact : a.value / b.value = signOf (a.negative != b.negative) * x := by
    rw [a.value_eq, b.value_eq, signOf_bne, hx, zpow_sub₀ (by norm_num), zpow_natCast, zpow_natCast]
    cases b.negative <;> simp only [signOf, if_true, Bool.false_eq_true, if_false] <;> field_simp
  have htracks : Quotient.Tracks ⟨a.magnitude / b.magnitude, a.magnitude % b.magnitude,
      (a.scale : Int) - b.scale, false⟩ b.magnitude x := by
    refine ⟨Nat.mod_lt _ hpos, (Nat.div_le_self _ _).trans_lt a.magnitude_lt, ?_, ?_⟩
    · have := a.scale_le
      simp only
      omega
    · have hdigits : (a.magnitude : ℚ) = b.magnitude * (a.magnitude / b.magnitude : Nat) +
          (a.magnitude % b.magnitude : Nat) := by
        exact_mod_cast (Nat.div_add_mod _ _).symm
      rw [hx, mul_assoc, ← zpow_add₀ (by norm_num), sub_add_sub_cancel, sub_self, zpow_zero,
        mul_one]
      simp only
      field_simp
      linarith
  have hends := Quotient.settles_expand 15 htracks (.inr (by
    have := b.scale_le
    have : maxScale = 28 := rfl
    simp only
    omega))
  rw [hexact]
  have hshown : ∀ q, Quotient.expand b.magnitude 16 ⟨a.magnitude / b.magnitude,
      a.magnitude % b.magnitude, (a.scale : Int) - b.scale, false⟩ = some q →
      (if q.padded then q.tidy else q).Settled x := by
    intro q hq
    rw [hq] at hends
    split
    · exact hends.tidy
    · exact hends
  refine Computes.of_orElse (fun d hd => ?_) fun hnone => ?_
  · obtain ⟨q, hq, hd⟩ := Option.bind_eq_some_iff.mp hd
    obtain ⟨d', hd', hnear⟩ := (hshown q hq).make? htracks.nonneg (a.negative != b.negative)
    obtain rfl : d' = d := Option.some.inj (hd'.symm.trans hd)
    exact hnear
  · cases hquotient : Quotient.expand b.magnitude 16 ⟨a.magnitude / b.magnitude,
        a.magnitude % b.magnitude, (a.scale : Int) - b.scale, false⟩ with
    | none =>
      rw [hquotient] at hends
      rw [Overflows, abs_mul, abs_signOf, one_mul, abs_of_nonneg htracks.nonneg]
      exact hends
    | some q =>
      obtain ⟨d, hd, -⟩ := (hshown q hquotient).make? htracks.nonneg (a.negative != b.negative)
      have := Option.bind_eq_none_iff.mp hnone q hquotient
      exact absurd (hd.symm.trans this) (by simp)

end SpotGateway.Decimal
