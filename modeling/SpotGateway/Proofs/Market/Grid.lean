import SpotGateway.Market.Rule
import SpotGateway.Proofs.Decimal.Quotient
import SpotGateway.Proofs.Outcome

/-!
# Rounding to the grid

Rounding down divides by the step, takes the whole part and multiplies by the step again.  Quotient
and product are rounded where they are too long, so that the result can be off the grid or above the
value that was to be rounded down.  Here is exactly when it is neither.

* `Decimal.value_floor`, `Decimal.floor_mul_congr` — whole parts;
* `Decimal.roundDownTo_eq_ok_iff`, `Decimal.nearest_of_roundDownTo` — what a rounded value is;
* `Decimal.Outgrows`, `Decimal.roundDownTo_eq_error_iff` — when there is none;
* `Decimal.Lands`, `Decimal.lands_iff` — the greatest multiple of the step that is not above the
  value;
* `TradingRule.lands_iff_exact` — prices and amounts on the grid of a rule;
* `Decimal.lands_of_powerOfTen` — steps that are powers of ten;
* `Decimal.Moderate`, `Decimal.Coarse`, `Decimal.Moderate.not_outgrows` — ordinary amounts and
  steps, which make nothing too large.
-/

set_option autoImplicit false

namespace SpotGateway

namespace Decimal

variable {value step r : Decimal}

/-! ## Whole parts -/

theorem floor_eq_ediv (d : Decimal) : ⌊d.value⌋ = d.coefficient / tenPow d.scale := by
  rw [Decimal.value, ← Rat.floor_intCast_div_natCast, cast_tenPow]

/-- The whole part has the sign of the number. -/
theorem floor_eq_signed (d : Decimal) :
    ⌊d.value⌋ = if d.negative then -(⌊d.value⌋.natAbs : ℤ) else ⌊d.value⌋.natAbs := by
  have hvalue := d.value_eq
  have hsize : (0 : ℚ) ≤ d.magnitude / 10 ^ d.scale := by positivity
  rw [mul_div_assoc, signOf] at hvalue
  cases hsign : d.negative with
  | true =>
    rw [hsign, if_pos rfl] at hvalue
    have : ⌊d.value⌋ ≤ 0 := by
      have : ⌊d.value⌋ < 0 + 1 := Int.floor_lt.mpr (by
        push_cast
        linarith)
      omega
    rw [if_pos rfl]
    omega
  | false =>
    rw [hsign, if_neg (by decide), one_mul] at hvalue
    have : 0 ≤ ⌊d.value⌋ := Int.floor_nonneg.mpr (hvalue ▸ hsize)
    rw [if_neg (by decide)]
    omega

theorem negative_iff_floor {d : Decimal} (h : ⌊d.value⌋ ≠ 0) :
    d.negative = true ↔ ⌊d.value⌋ < 0 := by
  have hsigned := d.floor_eq_signed
  cases hsign : d.negative with
  | true =>
    rw [hsign, if_pos rfl] at hsigned
    simp only [true_iff]
    omega
  | false =>
    rw [hsign, if_neg (by decide)] at hsigned
    simp only [Bool.false_eq_true, false_iff]
    omega

theorem magnitude_floor (d : Decimal) : d.floor.magnitude = ⌊d.value⌋.natAbs := by
  rw [d.floor_eq_ediv]
  rfl

theorem value_floor (d : Decimal) : d.floor.value = ⌊d.value⌋ := by
  have hsign : d.floor.negative = d.negative := rfl
  have hscale : d.floor.scale = 0 := rfl
  rw [Decimal.value_eq, magnitude_floor, hsign, hscale, pow_zero, div_one, signOf]
  conv_rhs => rw [d.floor_eq_signed]
  split
  · rw [neg_one_mul, Int.cast_neg, Int.cast_natCast]
  · rw [one_mul, Int.cast_natCast]

/-- Numbers with the same whole part have the same multiple. -/
theorem floor_mul_congr {a b : Decimal} (h : ⌊a.value⌋ = ⌊b.value⌋) (step : Decimal) :
    a.floor.mul step = b.floor.mul step := by
  have hsize : a.floor.magnitude = b.floor.magnitude := by
    rw [magnitude_floor, magnitude_floor, h]
  by_cases hzero : ⌊b.value⌋ = 0
  · have ha : a.floor.isZero = true := by
      rw [← value_eq_zero_iff, value_floor, h, hzero, Int.cast_zero]
    have hb : b.floor.isZero = true := by
      rw [← value_eq_zero_iff, value_floor, hzero, Int.cast_zero]
    simp [mul, ha, hb]
  · have hsign : a.negative = b.negative := by
      rw [Bool.eq_iff_iff, negative_iff_floor (h ▸ hzero), negative_iff_floor hzero, h]
    have heq : signed? b.negative b.floor.magnitude 0 = some a.floor :=
      signed?_eq_some_iff.mpr ⟨hsign, hsize, rfl⟩
    have heq' : signed? b.negative b.floor.magnitude 0 = some b.floor :=
      signed?_eq_some_iff.mpr ⟨rfl, rfl, rfl⟩
    rw [Option.some.inj (heq.symm.trans heq')]

/-! ## What rounding down gives -/

theorem roundDownTo_eq_ok_iff (hstep : step.isZero = false) : value.roundDownTo step = .ok r ↔
    ∃ count, value.div step = .ok count ∧ count.floor.mul step = .ok r := by
  rw [roundDownTo, if_neg (by simp [hstep]), bind_eq_ok]

/-- The quotient is rounded, and so is the multiple of its whole part. -/
theorem nearest_of_roundDownTo (hstep : step.isZero = false) (h : value.roundDownTo step = .ok r) :
    ∃ count : Decimal, Nearest (value.value / step.value) count.value ∧
      Nearest (⌊count.value⌋ * step.value) r.value ∧ count.floor.mul step = .ok r := by
  obtain ⟨count, hdiv, hmul⟩ := (roundDownTo_eq_ok_iff hstep).mp h
  have hproduct := (computes_mul count.floor step).nearest hmul
  rw [value_floor] at hproduct
  exact ⟨count, (computes_div hstep).nearest hdiv, hproduct, hmul⟩

/-- There is a step, and the number of steps is too large for a decimal, or the multiple of its
whole part is. -/
def Outgrows (value step : Decimal) : Prop :=
  step.value ≠ 0 ∧ (Overflows (value.value / step.value) ∨
    ∃ count, Nearest (value.value / step.value) count ∧ Overflows (⌊count⌋ * step.value))

/-- **When a value cannot be rounded down.** -/
theorem roundDownTo_eq_error_iff {fault : Fault} : value.roundDownTo step = .error fault ↔
    fault = .decimalOverflow ∧ value.Outgrows step := by
  unfold Outgrows
  by_cases hzero : step.isZero = true
  · simp [roundDownTo, hzero, value_eq_zero_iff.mpr hzero]
  · have hstep : step.isZero = false := by simpa using hzero
    have hquotient : Computes (value.value / step.value) (value.div step) := computes_div hstep
    have hnonzero : step.value ≠ 0 := fun h => hzero (value_eq_zero_iff.mp h)
    have hproduct : ∀ count : Decimal,
        count.floor.mul step = .error fault ↔
          fault = .decimalOverflow ∧ Overflows (⌊count.value⌋ * step.value) := by
      intro count
      rw [(computes_mul count.floor step).eq_error_iff, value_floor]
    rw [roundDownTo, if_neg hzero, bind_eq_error, hquotient.eq_error_iff]
    simp only [hproduct, hnonzero, ne_eq, not_false_eq_true, true_and]
    constructor
    · rintro (⟨rfl, hlarge⟩ | ⟨count, hcount, rfl, hlarge⟩)
      · exact ⟨rfl, .inl hlarge⟩
      · exact ⟨rfl, .inr ⟨_, hquotient.nearest hcount, hlarge⟩⟩
    · rintro ⟨rfl, hlarge | ⟨y, hnear, hlarge⟩⟩
      · exact .inl ⟨rfl, hlarge⟩
      · obtain ⟨count, hcount, hnear'⟩ := hquotient.exists_ok hnear.not_overflows
        obtain rfl := hnear.unique hnear'
        exact .inr ⟨count, hcount, rfl, hlarge⟩

/-! ## On the grid -/

/-- The greatest multiple of the step that is not above the value, which is rounded to itself. -/
structure Lands (value step r : Decimal) : Prop where
  multiple : ∃ n : ℤ, r.value = n * step.value
  le : r.value ≤ value.value
  lt : value.value < r.value + step.value
  stable : r.roundDownTo step = .ok r

theorem Lands.eq_floor (h : Lands value step r) (hstep : 0 < step.value) :
    r.value = ⌊value.value / step.value⌋ * step.value := by
  obtain ⟨n, hn⟩ := h.multiple
  have hfloor : ⌊value.value / step.value⌋ = n := by
    rw [Int.floor_eq_iff, le_div_iff₀ hstep, div_lt_iff₀ hstep, add_mul, one_mul, ← hn]
    exact ⟨h.le, h.lt⟩
  rw [hfloor, hn]

/-- An exact multiple, divided again, gives the same whole number, and so the same multiple. -/
theorem roundDownTo_multiple {count : Decimal} (hstep : step.isZero = false)
    (hr : r.value = ⌊count.value⌋ * step.value) (hmul : count.floor.mul step = .ok r) :
    r.roundDownTo step = .ok r := by
  have hnonzero : step.value ≠ 0 := by
    rw [ne_eq, value_eq_zero_iff, hstep]
    decide
  have hagain : r.value / step.value = ⌊count.value⌋ := by
    rw [hr]
    field_simp
  have hwhole : Holds (⌊count.value⌋ : ℚ) := ⟨count.floor, value_floor count⟩
  have hdiv := computes_div (a := r) hstep
  rw [hagain] at hdiv
  obtain ⟨count', hcount', hnear⟩ := hdiv.exists_ok (not_overflows_of_holds hwhole)
  refine (roundDownTo_eq_ok_iff hstep).mpr ⟨count', hcount', ?_⟩
  rw [← hmul]
  refine floor_mul_congr ?_ step
  rw [hnear.eq_of_holds hwhole, Int.floor_intCast]

/-- **When rounding down stays on the grid.**  Exactly if the quotient is not rounded up to the next
whole number, and the multiple of the step is a decimal. -/
theorem lands_iff (hstep : 0 < step.value) (h : value.roundDownTo step = .ok r) :
    Lands value step r ↔
      ¬ Nearest (value.value / step.value) (⌊value.value / step.value⌋ + 1) ∧
        Holds (⌊value.value / step.value⌋ * step.value) := by
  have hnonzero : step.isZero = false := by
    rw [← Bool.not_eq_true, ← value_eq_zero_iff]
    exact hstep.ne'
  obtain ⟨count, hcount, hr, hmul⟩ := nearest_of_roundDownTo hnonzero h
  obtain ⟨x, hx⟩ : ∃ x, x = value.value / step.value := ⟨_, rfl⟩
  have hvalue : x * step.value = value.value := by
    rw [hx]
    field_simp
  rw [← hx] at hcount ⊢
  constructor
  · intro hlands
    have hfloor := hlands.eq_floor hstep
    rw [← hx] at hfloor
    refine ⟨fun hup => ?_, hfloor ▸ ⟨r, rfl⟩⟩
    -- the value would lie between the next multiple and what that is rounded to
    have hnext : ⌊count.value⌋ = ⌊x⌋ + 1 := by
      rw [hcount.unique hup]
      exact_mod_cast Int.floor_intCast (⌊x⌋ + 1)
    rw [hnext, hfloor] at hr
    have hle : value.value ≤ ⌊x⌋ * step.value := by
      refine hr.ge_of_holds ⟨value, rfl⟩ ?_
      rw [← hvalue]
      push_cast
      gcongr
      exact (Int.lt_floor_add_one x).le
    have hwhole : x ≤ ⌊x⌋ := by
      rw [← hvalue] at hle
      exact le_of_mul_le_mul_right hle hstep
    have := hup.le_intCast hwhole
    linarith
  · rintro ⟨hup, hholds⟩
    have hfloor : ⌊count.value⌋ = ⌊x⌋ := by
      refine hcount.floor_eq.resolve_right fun hnext => hup ?_
      rwa [hnext] at hcount
    rw [hfloor] at hr
    have hr := hr.eq_of_holds hholds
    refine ⟨⟨⌊x⌋, hr⟩, ?_, ?_, ?_⟩
    · rw [hr, ← hvalue]
      gcongr
      exact Int.floor_le x
    · rw [hr, ← hvalue, ← add_one_mul]
      gcongr
      exact Int.lt_floor_add_one x
    · exact roundDownTo_multiple hnonzero (hfloor ▸ hr) hmul

/-- **Steps that are powers of ten.**  A value that can be rounded down to such a step at all is
rounded to the grid. -/
theorem lands_of_powerOfTen (hsign : step.negative = false) (hone : step.magnitude = 1)
    (h : value.roundDownTo step = .ok r) : Lands value step r := by
  have hvalue : step.value = 1 / 10 ^ step.scale := by
    rw [Decimal.value_eq, hsign, hone, signOf, if_neg (by decide), one_mul, Nat.cast_one]
  have hstep : 0 < step.value := by
    rw [hvalue]
    positivity
  have hnonzero : step.isZero = false := by
    rw [isZero, hone]
    rfl
  obtain ⟨count, hcount, -, -⟩ := nearest_of_roundDownTo hnonzero h
  have hshift : value.value / step.value / 10 ^ step.scale = value.value := by
    rw [hvalue]
    field_simp
  -- the quotient moves the point, so that it is exact
  have hexact : Holds (value.value / step.value) := by
    refine holds_of_div (k := step.scale) ⟨value, hshift.symm⟩ ?_
    have := lt_of_not_ge hcount.not_overflows
    linarith
  have hcount := hcount.eq_of_holds hexact
  refine (lands_iff hstep h).mpr ⟨fun hup => ?_, ?_⟩
  · have := hup.eq_of_holds hexact
    have := Int.lt_floor_add_one (value.value / step.value)
    linarith
  · refine holds_of_abs_eq count.floor.magnitude_lt step.scale_le ?_
    have hscale : count.floor.scale = 0 := rfl
    rw [← hcount, abs_mul, abs_of_pos hstep, ← value_floor, abs_value, hscale, pow_zero, div_one,
      hvalue, mul_one_div]

/-! ## Ordinary amounts and steps -/

/-- A number that is rounded up to the next whole number is at least half of it. -/
theorem Nearest.floor_le_double {x y : ℚ} (hx : 0 ≤ x) (h : Nearest x y) :
    (⌊y⌋ : ℚ) ≤ 2 * x := by
  have hlow := Int.floor_le x
  rcases h.floor_eq with hfloor | hup
  · rw [hfloor]
    linarith
  · have hnext : ⌊y⌋ = ⌊x⌋ + 1 := by
      rw [hup]
      exact_mod_cast Int.floor_intCast (⌊x⌋ + 1)
    rw [hnext]
    push_cast
    rcases (Int.floor_nonneg.mpr hx).eq_or_lt with hzero | hpos
    · rw [← hzero] at hup ⊢
      have hhalf : Holds (1 / 2) :=
        ⟨⟨false, 5, 1, by decide, by decide⟩, by norm_num [Decimal.value, Decimal.coefficient]⟩
      by_contra hlt
      have := h.le_of_holds hhalf (by push_cast at hlt; linarith)
      push_cast at hup
      linarith
    · have : (1 : ℚ) ≤ ⌊x⌋ := by exact_mod_cast hpos
      linarith

/-- An amount or a price of at most `10 ^ 14`. -/
def Moderate (d : Decimal) : Prop := 0 ≤ d.value ∧ d.value ≤ 10 ^ 14

/-- No step, or one of at least `1 / 10 ^ 14`. -/
def Coarse (step : Decimal) : Prop := step.value = 0 ∨ 1 / 10 ^ 14 ≤ step.value

/-- The multiple is at most twice the value, whatever the rounding of the quotient does. -/
theorem multiple_le_double {count : ℚ} (hvalue : 0 ≤ value.value) (hstep : 0 < step.value)
    (h : Nearest (value.value / step.value) count) :
    0 ≤ ⌊count⌋ * step.value ∧ ⌊count⌋ * step.value ≤ 2 * value.value := by
  have hx : 0 ≤ value.value / step.value := by positivity
  have hnonneg : (0 : ℚ) ≤ ⌊count⌋ := by
    have : (0 : ℤ) ≤ count := h.intCast_le (by simpa using hx)
    exact_mod_cast Int.floor_nonneg.mpr (by exact_mod_cast this)
  refine ⟨by positivity, ?_⟩
  calc ⌊count⌋ * step.value ≤ 2 * (value.value / step.value) * step.value := by
        gcongr
        exact h.floor_le_double hx
    _ = 2 * value.value := by field_simp

theorem Coarse.pos (h : Coarse step) (hnonzero : step.value ≠ 0) : 0 < step.value := by
  have := h.resolve_left hnonzero
  linarith [(by positivity : (0 : ℚ) < 1 / 10 ^ 14)]

theorem coefficientLimit_gt : (4 * 10 ^ 28 : ℚ) < coefficientLimit - 1 / 2 := by
  have : (4 * 10 ^ 28 + 1 : Nat) ≤ coefficientLimit := by decide
  have : ((4 * 10 ^ 28 + 1 : Nat) : ℚ) ≤ coefficientLimit := by exact_mod_cast this
  push_cast at this
  linarith

/-- Ordinary amounts can be rounded down to ordinary steps. -/
theorem Moderate.not_outgrows (hvalue : Moderate value) (hstep : Coarse step) :
    ¬ value.Outgrows step := by
  rintro ⟨hnonzero, hlarge | ⟨count, hcount, hlarge⟩⟩
  · have hpos := hstep.pos hnonzero
    have hquotient : value.value / step.value ≤ 10 ^ 28 := by
      rw [div_le_iff₀ hpos]
      have := hstep.resolve_left hnonzero
      have := hvalue.2
      linarith
    have : |value.value / step.value| = value.value / step.value :=
      abs_of_nonneg (div_nonneg hvalue.1 hpos.le)
    rw [Overflows, this] at hlarge
    linarith [coefficientLimit_gt]
  · obtain ⟨hnonneg, hle⟩ := multiple_le_double hvalue.1 (hstep.pos hnonzero) hcount
    rw [Overflows, abs_of_nonneg hnonneg] at hlarge
    linarith [coefficientLimit_gt, hvalue.2]

/-- What an ordinary amount is rounded down to is at most twice as large. -/
theorem Moderate.roundDownTo_le (hvalue : Moderate value) (hstep : Coarse step)
    (h : value.roundDownTo step = .ok r) : 0 ≤ r.value ∧ r.value ≤ 2 * 10 ^ 14 := by
  by_cases hzero : step.isZero = true
  · rw [roundDownTo, if_pos hzero] at h
    cases h
    exact ⟨hvalue.1, by linarith [hvalue.2]⟩
  · have hnonzero : step.value ≠ 0 := fun h => hzero (value_eq_zero_iff.mp h)
    obtain ⟨count, hcount, hr, -⟩ := nearest_of_roundDownTo (by simpa using hzero) h
    obtain ⟨hnonneg, hle⟩ := multiple_le_double hvalue.1 (hstep.pos hnonzero) hcount
    have hlow := hr.intCast_le (n := 0) (by exact_mod_cast hnonneg)
    have hhigh := hr.le_intCast (n := 2 * 10 ^ 14) (by
      push_cast
      linarith [hvalue.2])
    push_cast at hlow hhigh
    exact ⟨hlow, by linarith⟩

end Decimal

namespace TradingRule

/-- **When prices and amounts are rounded down to the grid.**  For every rule and every value that
can be rounded by it at all, to the tick as a price or to the step as an amount: the result is a
multiple of the tick or step, is not above the value, is less than one tick or step below it and is
rounded to itself, exactly if the number of steps in the value is not rounded up to the next whole
number and a decimal holds the multiple. -/
theorem lands_iff_exact {rule : TradingRule} {value step r : Decimal}
    (h : step = rule.tick ∧ rule.quantizePrice value = .ok r ∨
      step = rule.step ∧ rule.quantizeAmount value = .ok r) (hstep : Decimal.zero < step) :
    value.Lands step r ↔
      ¬ Decimal.Nearest (value.value / step.value) (⌊value.value / step.value⌋ + 1) ∧
        Decimal.Holds (⌊value.value / step.value⌋ * step.value) := by
  have hstep : 0 < step.value := by
    rw [← Decimal.value_zero]
    exact Decimal.lt_iff.mp hstep
  rcases h with ⟨rfl, h⟩ | ⟨rfl, h⟩
  · exact Decimal.lands_iff hstep h
  · exact Decimal.lands_iff hstep h

/-- A rule without minimums, whose tick is the step too. -/
def ofTick (tick : Decimal) : TradingRule := ⟨"ETH-XLM", .zero, tick, tick, .zero⟩

/-- A hundredth as the tick, and a price between two hundredths. -/
def hundredth : Decimal := ⟨false, 1, 2, Decimal.one.magnitude_lt, by decide⟩

def betweenHundredths : Decimal := ⟨false, 100129, 3, by decide, by decide⟩

/-- The price is rounded down to the lower hundredth. -/
theorem lands_hundredths : ∃ r : Decimal, Decimal.make? 10012 2 = some r ∧
    Decimal.zero < hundredth ∧ (ofTick hundredth).quantizePrice betweenHundredths = .ok r ∧
    betweenHundredths.Lands hundredth r := by
  have hquantize : (ofTick hundredth).quantizePrice betweenHundredths =
      .ok ⟨false, 10012, 2, by decide, by decide⟩ := by
    decide +kernel
  have hsteps : betweenHundredths.value / hundredth.value = 100129 / 10 := by
    norm_num [Decimal.value, Decimal.coefficient, hundredth, betweenHundredths]
  have hfloor : ⌊(100129 / 10 : ℚ)⌋ = 10012 := by
    rw [Int.floor_eq_iff]
    norm_num
  have hprice : hundredth = (ofTick hundredth).tick ∧ (ofTick hundredth).quantizePrice
      betweenHundredths = .ok ⟨false, 10012, 2, by decide, by decide⟩ := ⟨rfl, hquantize⟩
  refine ⟨_, rfl, by decide, hquantize, (lands_iff_exact (.inl hprice) (by decide)).mpr ?_⟩
  rw [hsteps, hfloor]
  constructor
  · intro hup
    have hexact : Decimal.Holds (100129 / 10) :=
      ⟨⟨false, 100129, 1, by decide, by decide⟩, by norm_num [Decimal.value, Decimal.coefficient]⟩
    have := hup.eq_of_holds hexact
    norm_num at this
  · exact ⟨⟨false, 10012, 2, by decide, by decide⟩,
      by norm_num [Decimal.value, Decimal.coefficient, hundredth]⟩

/-- Three, and the last decimal before six. -/
def three : Decimal := ⟨false, 3, 0, by decide, Nat.zero_le _⟩

def belowSix : Decimal := ⟨false, 59999999999999999999999999999, 28, by decide, by decide⟩

/-- The first decimal after one. -/
def aboveOne : Decimal := ⟨false, 10000000000000000000000000001, 28, by decide, by decide⟩

/-- With a tick of three the last price before six becomes six, as the quotient is rounded up to
two.  With a tick of a little more than one, nine becomes a price that is no multiple of the tick,
as eight ticks have too many digits. -/
theorem offGrid_longDigits : (∃ six : Decimal, Decimal.make? 6 0 = some six ∧
      (ofTick three).quantizePrice belowSix = .ok six ∧ belowSix < six ∧
      ¬ belowSix.Lands three six) ∧
    ∃ nine r : Decimal, Decimal.make? 9 0 = some nine ∧
      Decimal.make? 8000000000000000000000000001 27 = some r ∧
      (ofTick aboveOne).quantizePrice nine = .ok r ∧ ¬ nine.Lands aboveOne r := by
  refine ⟨⟨⟨false, 6, 0, by decide, by decide⟩, by decide, by decide +kernel, by decide,
      fun h => ?_⟩,
    ⟨false, 9, 0, by decide, by decide⟩,
    ⟨false, 8000000000000000000000000001, 27, by decide, by decide⟩, by decide, by decide,
    by decide +kernel, fun h => ?_⟩
  · have hle := h.le
    norm_num [Decimal.value, Decimal.coefficient, belowSix] at hle
  · obtain ⟨n, hn⟩ := h.multiple
    norm_num [Decimal.value, Decimal.coefficient, aboveOne] at hn
    have hn : (80000000000000000000000000010 : ℚ) = n * 10000000000000000000000000001 := by
      linarith
    have hn : (80000000000000000000000000010 : ℤ) = n * 10000000000000000000000000001 := by
      exact_mod_cast hn
    omega

end TradingRule

end SpotGateway
