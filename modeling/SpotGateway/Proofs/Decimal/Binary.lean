import SpotGateway.Decimal.Binary
import SpotGateway.Proofs.Binary64.Nearness
import SpotGateway.Proofs.Json.Number

/-!
# Decimals as floating-point numbers

Every decimal has a floating-point number, whose shortest digits are near to the decimal, and are the
decimal itself if it has few digits.

* `Decimal.Short` — at most 15 digits, of which at most 22 places;
* `Binary64.Shows` — a floating-point number that shows a decimal;
* `Decimal.shows_of_toBinary64?` — the conversion.
-/

set_option autoImplicit false

namespace SpotGateway

/-- At most 15 digits, and at most 22 places behind the point. -/
def Decimal.Short (d : Decimal) : Prop := d.magnitude < 10 ^ 15 ∧ d.scale ≤ 22

namespace Binary64

variable {x y : Binary64} {q : ℚ}

/-- The shortest digits are those of the decimal, but for a last part in `2 ^ 48`, and exactly those
if the decimal has few. -/
structure Shows (x : Binary64) (d : Decimal) : Prop where
  finite : x.Finite
  near : |x.written - d.value| ≤ |d.value| / 2 ^ 48
  exact : d.Short → x.written = d.value

/-! ## Powers of ten -/

/-- Powers of ten by repeated squaring are rounded once. -/
theorem power?_ten {s : Nat} (hs : s ≤ maxScale) :
    ((ofNat? 10).bind fun ten => ten.power? s) = ofNat? (tenPow s) := by
  have hall : ∀ s < 29, ((ofNat? 10).bind fun ten => ten.power? s) = ofNat? (tenPow s) := by
    decide +kernel
  exact hall s (Nat.lt_succ_of_le hs)

/-- A power of ten, to the given part. -/
structure IsPower (p : Binary64) (s : Nat) (ε : ℚ) : Prop where
  rounded : ofNat? (tenPow s) = some p
  unsigned : p.negative = false
  significand_ne_zero : p.significand ≠ 0
  near : Near ε p.magnitude (10 ^ s)

theorem exists_isPower {s : Nat} (hs : s ≤ maxScale) : ∃ p : Binary64, p.IsPower s roundoff := by
  have hlt : ((tenPow s : Nat) : ℚ) < 2 ^ 200 := by
    rw [cast_tenPow]
    calc (10 : ℚ) ^ s ≤ 10 ^ maxScale := pow_le_pow_right₀ (by norm_num) hs
      _ < 2 ^ 200 := by norm_num [maxScale]
  obtain ⟨p, hp, hsign, hrounds⟩ := ofNat?_rounds (tenPow_pos s) hlt
  rw [cast_tenPow] at hrounds
  exact ⟨p, hp, hsign, hrounds.significand_ne_zero, hrounds.near⟩

/-- Small powers of ten are exact. -/
theorem exists_isPower_zero {s : Nat} (hs : s ≤ 22) : ∃ p : Binary64, p.IsPower s 0 := by
  obtain ⟨p, hp, hsign, hvalue⟩ := Json.Literal.ofNat?_tenPow hs
  refine ⟨p, hp, hsign, significand_ne_zero_of_ofNat? (tenPow_pos s) hp, ?_⟩
  rw [hvalue]
  exact Near.refl _

/-! ## The whole part and the fraction -/

theorem written_zero (negative : Bool) : (zero negative).written = 0 := rfl

theorem written_of_rounds (h : x.Rounds q) (hsign : x.negative = false) :
    x.written = x.shortest.1 * 10 ^ x.shortest.2 := by
  rw [written, if_neg h.isZero, hsign]
  simp [signOf]

/-- The digits that are shown are near to what has been rounded. -/
theorem Rounds.written_near (h : x.Rounds q) (hsign : x.negative = false) :
    Near (compound roundoff roundoff) x.written q := by
  rw [written_of_rounds h hsign]
  exact h.shortest_near.trans roundoff_nonneg h.near

/-- Few digits are shown as they are. -/
theorem Rounds.written_eq {n : Nat} {e : Int} (h : x.Rounds (n * 10 ^ e)) (hsign : x.negative = false)
    (hn : n < 10 ^ 15) : x.written = n * 10 ^ e := by
  rw [written_of_rounds h hsign, shortest_of_encloses h.finite h.full hn h.encloses]

/-- A whole number is near to its floating-point number, and to the digits that this shows. -/
theorem ofNat?_near {n : Nat} (hn : (n : ℚ) < 2 ^ 200) : ∃ x, ofNat? n = some x ∧
    x.negative = false ∧ x.Finite ∧ Near roundoff x.magnitude n ∧
    Near (1 / 2 ^ 48) x.written n ∧ (n < 10 ^ 15 → x.written = n) := by
  rcases Nat.eq_zero_or_pos n with rfl | hpos
  · refine ⟨zero false, by simp [ofNat?, ofRatio?], rfl, finite_of_ofNat? (n := 0) (by
      simp [ofNat?, ofRatio?]), ?_, ?_, fun _ => ?_⟩
    · simp [Near, magnitude_zero]
    · simp [Near, written_zero]
    · simp [written_zero]
  · obtain ⟨x, hx, hsign, hrounds⟩ := ofNat?_rounds hpos hn
    refine ⟨x, hx, hsign, hrounds.finite, hrounds.near,
      (hrounds.written_near hsign).mono ?_ (Nat.cast_nonneg n), fun hdigits => ?_⟩
    · norm_num [compound, roundoff, precision]
    · have hplain : x.Rounds (n * 10 ^ (0 : Int)) := by rwa [zpow_zero, mul_one]
      simpa using hplain.written_eq hsign hdigits

/-- What is lost of the fraction. -/
def fractionError (ε : ℚ) : ℚ := compound roundoff (compound roundoff (ε / (1 - ε)))

/-- What is lost of the number when its parts are put together and its point is moved to the end. -/
def wholeError (ε : ℚ) : ℚ :=
  compound roundoff (compound (compound roundoff (fractionError ε)) ε)

/-- The power of ten is exact, or it is rounded once. -/
inductive PowerError : ℚ → Prop where
  | exact : PowerError 0
  | rounded : PowerError roundoff

variable {p : Binary64} {s : Nat} {ε : ℚ}

/-- Nothing of this comes near to a half. -/
theorem PowerError.bounds (h : PowerError ε) : 0 ≤ ε ∧ ε ≤ 1 / 2 ∧
    roundoff ≤ fractionError ε ∧ fractionError ε ≤ 1 / 2 ∧
    compound (compound roundoff (fractionError ε)) ε ≤ 1 / 2 := by
  cases h <;> norm_num [fractionError, compound, roundoff, precision]

theorem PowerError.wholeError_bounds (h : PowerError ε) :
    0 ≤ wholeError ε ∧ wholeError ε * 2 ^ 49 < 1 / 2 := by
  cases h <;> norm_num [wholeError, fractionError, compound, roundoff, precision]

theorem tenPow_le_maxScale (hs : s ≤ maxScale) : (10 : ℚ) ^ s ≤ 10 ^ maxScale :=
  pow_le_pow_right₀ (by norm_num) hs

/-- A power of ten is not far from its place. -/
theorem IsPower.bounds (h : p.IsPower s ε) (hs : s ≤ maxScale) (hε : PowerError ε) :
    1 / 2 ≤ p.magnitude ∧ p.magnitude ≤ 2 * 10 ^ maxScale := by
  have hone : (1 : ℚ) ≤ 10 ^ s := one_le_pow₀ (by norm_num)
  have hmax := tenPow_le_maxScale hs
  have hnear := h.near.mono hε.bounds.2.1 (by positivity)
  have hle := hnear.le
  have hge := hnear.ge
  constructor <;> linarith

/-- The fraction, as a quotient of whole numbers. -/
theorem div?_near {f : Nat} (hf : 0 < f) (hlt : f < 10 ^ s) (hs : s ≤ maxScale)
    (hp : p.IsPower s ε) (hε : PowerError ε) :
    ∃ y z, ofNat? f = some y ∧ y.div? p = some z ∧ z.negative = false ∧ z.significand ≠ 0 ∧
      Near (fractionError ε) z.magnitude (f / 10 ^ s) := by
  have hf1 : (1 : ℚ) ≤ f := by exact_mod_cast hf
  have hfs : (f : ℚ) ≤ 10 ^ maxScale := by
    have : (f : ℚ) ≤ 10 ^ s := by exact_mod_cast hlt.le
    exact this.trans (tenPow_le_maxScale hs)
  have hlimit : (10 : ℚ) ^ maxScale < 2 ^ 200 := by norm_num [maxScale]
  obtain ⟨y, hy, hysign, hyrounds⟩ := ofNat?_rounds hf (hfs.trans_lt hlimit)
  obtain ⟨hlow, hhigh⟩ := hp.bounds hs hε
  have hhalf : roundoff ≤ 1 / 2 := by norm_num [roundoff, precision]
  have hynear := hyrounds.near.mono hhalf (by positivity)
  have hyle := hynear.le
  have hyge := hynear.ge
  have hppos : 0 < p.magnitude := by linarith
  have hrange : InRange (y.magnitude / p.magnitude) := by
    constructor
    · rw [le_div_iff₀ hppos]
      calc (2 : ℚ) ^ (-100 : Int) * p.magnitude
          ≤ 2 ^ (-100 : Int) * (2 * 10 ^ maxScale) :=
            mul_le_mul_of_nonneg_left hhigh (two_zpow_pos (-100)).le
        _ ≤ 1 / 2 := by norm_num [maxScale]
        _ ≤ y.magnitude := by linarith
    · rw [div_lt_iff₀ hppos]
      have : (2 : ℚ) * 10 ^ maxScale < 2 ^ 200 * (1 / 2) := by norm_num [maxScale]
      linarith
  obtain ⟨z, hz, hzsign, hzrounds⟩ :=
    div?_rounds hyrounds.significand_ne_zero hp.significand_ne_zero hrange
  refine ⟨y, z, hy, hz, by rw [hzsign, hysign, hp.unsigned]; rfl, hzrounds.significand_ne_zero,
    hzrounds.near.trans roundoff_nonneg ?_⟩
  rw [div_eq_mul_inv, div_eq_mul_inv]
  exact hyrounds.near.mul (hp.near.inv (by positivity) (by linarith [hε.bounds.2.1])) roundoff_nonneg
    (by positivity) (by positivity)

/-- The parts together, with the point moved to the end. -/
theorem mul?_near {w f : Nat} (hw : w * 10 ^ s + f < coefficientLimit) (hf : 0 < f)
    (hs : s ≤ maxScale) (hp : p.IsPower s ε) (hε : PowerError ε) (hx : x.negative = false)
    (hxw : Near roundoff x.magnitude w) (hy : y.significand ≠ 0)
    (hyf : Near (fractionError ε) y.magnitude (f / 10 ^ s)) :
    ∃ sum z, x.addMagnitudes? y = some sum ∧ sum.mul? p = some z ∧ z.negative = false ∧
      Near (wholeError ε) z.magnitude (w * 10 ^ s + f : Nat) := by
  obtain ⟨hε0, -, hround, hfraction, hhalf⟩ := hε.bounds
  have hf1 : (1 : ℚ) ≤ f := by exact_mod_cast hf
  have hpow : (0 : ℚ) < 10 ^ s := by positivity
  have hmax := tenPow_le_maxScale hs
  have hnumber : (w + f / 10 ^ s : ℚ) * 10 ^ s = (w * 10 ^ s + f : Nat) := by
    push_cast
    field_simp
  have hlimit : ((w * 10 ^ s + f : Nat) : ℚ) < 2 ^ 96 := by exact_mod_cast hw
  have hone : (1 : ℚ) ≤ (w * 10 ^ s + f : Nat) := by exact_mod_cast Nat.le_add_left_of_le hf
  -- the sum
  have hsum := (hxw.mono hround (Nat.cast_nonneg w)).add hyf
  have hpos : (0 : ℚ) ≤ w + f / 10 ^ s := by positivity
  have hnear := hsum.mono hfraction hpos
  have hle := hnear.le
  have hge := hnear.ge
  have hplaces : (1 : ℚ) ≤ (w + f / 10 ^ s) * 10 ^ maxScale :=
    (hone.trans_eq hnumber.symm).trans (mul_le_mul_of_nonneg_left hmax hpos)
  have hupper : (w + f / 10 ^ s : ℚ) ≤ (w * 10 ^ s + f : Nat) :=
    (le_mul_of_one_le_right hpos (one_le_pow₀ (by norm_num))).trans_eq hnumber
  have hrange : InRange (x.magnitude + y.magnitude) := by
    rw [← div_le_iff₀ (by positivity)] at hplaces
    have hsmall : (2 : ℚ) ^ (-100 : Int) ≤ 1 / 2 * (1 / 10 ^ maxScale) := by norm_num [maxScale]
    exact ⟨hsmall.trans (by linarith), by linarith⟩
  obtain ⟨sum, hsome, hsign, hrounds⟩ := addMagnitudes?_rounds x hy hrange
  -- the product
  have herror := compound_nonneg roundoff_nonneg (roundoff_nonneg.trans hround)
  have hproduct := (hrounds.near.trans roundoff_nonneg hsum).mul hp.near herror hpos
    (magnitude_pos hp.significand_ne_zero).le
  rw [hnumber] at hproduct
  have hcoarse := hproduct.mono hhalf (by positivity)
  have hle' := hcoarse.le
  have hge' := hcoarse.ge
  have hrange' : InRange (sum.magnitude * p.magnitude) := by
    have hsmall : (2 : ℚ) ^ (-100 : Int) ≤ 1 / 2 := by norm_num
    exact ⟨hsmall.trans (by linarith), by linarith⟩
  obtain ⟨z, hz, hzsign, hzrounds⟩ :=
    mul?_rounds hrounds.significand_ne_zero hp.significand_ne_zero hrange'
  refine ⟨sum, z, hsome, hz, ?_, hzrounds.near.trans roundoff_nonneg hproduct⟩
  rw [hzsign, hsign, hx, hp.unsigned]
  rfl

/-! ## The conversion -/

/-- The nearest whole number is the one there was, as long as less than a half is lost, and near to
it in any case. -/
theorem round_near {z : ℚ} {m n : Nat} (hz : Near (wholeError ε) z m) (hε : PowerError ε)
    (hlow : (n : ℚ) ≤ z + 1 / 2) (hhigh : z + 1 / 2 < n + 1) :
    Near (wholeError ε + 1 / 2 ^ 50) n m ∧ (wholeError ε * m < 1 / 2 → n = m) := by
  obtain ⟨hleft, hright⟩ := abs_le.mp hz
  have hback : wholeError ε * m < 1 / 2 → n = m := by
    intro hlost
    have hle : (n : ℚ) < m + 1 := by linarith
    have hge : (m : ℚ) < n + 1 := by linarith
    exact Nat.le_antisymm (Nat.le_of_lt_succ (by exact_mod_cast hle))
      (Nat.le_of_lt_succ (by exact_mod_cast hge))
  have herror := hε.wholeError_bounds
  refine ⟨?_, hback⟩
  rcases Nat.lt_or_ge m (2 ^ 49) with hsmall | hlarge
  · have hm : (m : ℚ) ≤ 2 ^ 49 := by exact_mod_cast hsmall.le
    have := mul_le_mul_of_nonneg_left hm herror.1
    rw [hback (by linarith)]
    exact (Near.refl _).mono (by linarith) (Nat.cast_nonneg m)
  · have hm : (2 : ℚ) ^ 49 ≤ m := by exact_mod_cast hlarge
    rw [Near, abs_le]
    constructor <;> linarith

/-- What is lost in all, before the digits are shown. -/
def quotientError (ε : ℚ) : ℚ :=
  compound (compound roundoff (wholeError ε + 1 / 2 ^ 50)) (ε / (1 - ε))

theorem quotientError_bounds (hε : PowerError ε) : quotientError ε ≤ 1 / 2 ∧
    compound (compound roundoff roundoff) (quotientError ε) ≤ 1 / 2 ^ 48 := by
  cases hε <;>
    norm_num [quotientError, wholeError, fractionError, compound, roundoff, precision]

/-- The point moved back to its place. -/
theorem div?_shows {m n : Nat} (hm : 0 < m) (hlt : m < coefficientLimit) (hs : s ≤ maxScale)
    (hp : p.IsPower s ε) (hε : PowerError ε) (hn : 0 < n)
    (hnm : Near (wholeError ε + 1 / 2 ^ 50) n m) :
    ∃ y z, ofNat? n = some y ∧ y.div? p = some z ∧ z.negative = false ∧ z.Finite ∧
      Near (1 / 2 ^ 48) z.written (m / 10 ^ s) ∧
      (n = m → ε = 0 → m < 10 ^ 15 → z.written = m / 10 ^ s) := by
  have hone : (1 : ℚ) ≤ m := by exact_mod_cast hm
  have hlimit : (m : ℚ) < 2 ^ 96 := by exact_mod_cast hlt
  have hpow : (0 : ℚ) < 10 ^ s := by positivity
  have hmax := tenPow_le_maxScale hs
  obtain ⟨hhalf, hfinal⟩ := quotientError_bounds hε
  have hbounds := hε.bounds
  obtain ⟨herror0, herror⟩ := hε.wholeError_bounds
  have hnlimit : (n : ℚ) < 2 ^ 200 := by
    have : wholeError ε + 1 / 2 ^ 50 ≤ 1 := by linarith
    have := (hnm.mono this (Nat.cast_nonneg m)).le
    linarith
  obtain ⟨y, hy, hysign, hyrounds⟩ := ofNat?_rounds hn hnlimit
  have hquotient : Near (quotientError ε) (y.magnitude / p.magnitude) (m / 10 ^ s) := by
    rw [div_eq_mul_inv, div_eq_mul_inv]
    have hinv := hp.near.inv hpow (by linarith)
    refine (hyrounds.near.trans roundoff_nonneg hnm).mul hinv ?_ (by positivity) ?_
    · exact compound_nonneg roundoff_nonneg (by linarith)
    · exact inv_nonneg.mpr (magnitude_pos hp.significand_ne_zero).le
  have hcoarse := hquotient.mono hhalf (by positivity)
  have hrange : InRange (y.magnitude / p.magnitude) := by
    have hlow : (1 : ℚ) / 10 ^ maxScale ≤ m / 10 ^ s :=
      (div_le_div_of_nonneg_left zero_le_one hpow hmax).trans
        (div_le_div_of_nonneg_right hone hpow.le)
    have hhigh : (m : ℚ) / 10 ^ s ≤ m := div_le_self (by positivity) (one_le_pow₀ (by norm_num))
    have hle := hcoarse.le
    have hge := hcoarse.ge
    have hsmall : (2 : ℚ) ^ (-100 : Int) ≤ 1 / 2 * (1 / 10 ^ maxScale) := by norm_num [maxScale]
    exact ⟨hsmall.trans (by linarith), by linarith⟩
  obtain ⟨z, hz, hzsign, hzrounds⟩ :=
    div?_rounds hyrounds.significand_ne_zero hp.significand_ne_zero hrange
  have hunsigned : z.negative = false := by
    rw [hzsign, hysign, hp.unsigned]
    rfl
  refine ⟨y, z, hy, hz, hunsigned, hzrounds.finite, ?_, ?_⟩
  · have hwritten := (hzrounds.written_near hunsigned).trans
      (compound_nonneg roundoff_nonneg roundoff_nonneg) hquotient
    exact hwritten.mono hfinal (by positivity)
  · rintro rfl rfl hdigits
    -- both the number and the power are exact, so there is only the last rounding
    obtain ⟨y', hy', -, hexact⟩ := ofNat?_exact (j := 0) (Nat.lt_trans hdigits (by decide))
      (by decide)
    rw [pow_zero, Nat.mul_one, hy] at hy'
    obtain rfl : y = y' := Option.some.inj hy'
    have hpower : p.magnitude = 10 ^ s := by
      have := hp.near
      rw [Near, zero_mul] at this
      exact sub_eq_zero.mp (abs_nonpos_iff.mp this)
    have hratio : (n : ℚ) / 10 ^ s = n * 10 ^ (-(s : Int)) := by
      rw [zpow_neg, zpow_natCast, div_eq_mul_inv]
    rw [hexact, hpower, pow_zero, mul_one, hratio] at hzrounds
    rw [hratio]
    exact hzrounds.written_eq hunsigned hdigits

/-- The steps of the conversion of a number with a fraction. -/
theorem convert_shows {w f : Nat} (hw : w * 10 ^ s + f < coefficientLimit) (hf : 0 < f)
    (hlt : f < 10 ^ s) (hs : s ≤ maxScale) (hp : p.IsPower s ε) (hε : PowerError ε) :
    ∃ whole part fraction sum scaled rounded x,
      ofNat? w = some whole ∧ ofNat? f = some part ∧ part.div? p = some fraction ∧
      fraction.isZero = false ∧ whole.addMagnitudes? fraction = some sum ∧
      sum.mul? p = some scaled ∧ scaled.roundWhole? = some rounded ∧ rounded.div? p = some x ∧
      x.negative = false ∧ x.Finite ∧
      Near (1 / 2 ^ 48) x.written ((w * 10 ^ s + f : Nat) / 10 ^ s) ∧
      (ε = 0 → w * 10 ^ s + f < 10 ^ 15 → x.written = (w * 10 ^ s + f : Nat) / 10 ^ s) := by
  have hwlimit : (w : ℚ) < 2 ^ 200 := by
    have : w < coefficientLimit :=
      Nat.lt_of_le_of_lt (Nat.le_add_right_of_le (Nat.le_mul_of_pos_right w (by positivity))) hw
    have : (w : ℚ) < 2 ^ 96 := by exact_mod_cast this
    linarith
  obtain ⟨whole, hwhole, hsign, -, hwnear, -⟩ := ofNat?_near hwlimit
  obtain ⟨part, fraction, hpart, hfraction, -, hne, hfnear⟩ := div?_near hf hlt hs hp hε
  obtain ⟨sum, scaled, hsum, hscaled, hunsigned, hnear⟩ :=
    mul?_near hw hf hs hp hε hsign hwnear hne hfnear
  obtain ⟨n, hround, hlow, hhigh⟩ := roundWhole?_spec hunsigned
  obtain ⟨hnm, hback⟩ := round_near hnear hε hlow hhigh
  have hm : 0 < w * 10 ^ s + f := Nat.add_pos_right _ hf
  have hn : 0 < n := by
    obtain ⟨herror0, herror⟩ := hε.wholeError_bounds
    have hhalf : wholeError ε ≤ 1 / 2 := by linarith
    have hge := (hnear.mono hhalf (Nat.cast_nonneg _)).ge
    have : (1 : ℚ) ≤ (w * 10 ^ s + f : Nat) := by exact_mod_cast hm
    have : (0 : ℚ) < n := by linarith
    exact_mod_cast this
  obtain ⟨rounded, x, hrounded, hx, hxsign, hfinite, hxnear, hexact⟩ :=
    div?_shows hm hw hs hp hε hn hnm
  refine ⟨whole, part, fraction, sum, scaled, rounded, x, hwhole, hpart, hfraction, ?_, hsum, hscaled,
    hround.trans hrounded, hx, hxsign, hfinite, hxnear, ?_⟩
  · rw [isZero, beq_eq_false_iff_ne]
    exact hne
  · rintro rfl hdigits
    refine hexact (hback ?_) rfl hdigits
    have hdigits : ((w * 10 ^ s + f : Nat) : ℚ) ≤ 10 ^ 15 := by exact_mod_cast hdigits.le
    have herror : 0 ≤ wholeError 0 ∧ wholeError 0 * 10 ^ 15 < 1 / 2 := by
      norm_num [wholeError, fractionError, compound, roundoff, precision]
    have := mul_le_mul_of_nonneg_left hdigits herror.1
    linarith

end Binary64

namespace Decimal

open Binary64

/-- A number of the same sign shows the decimal if its digits are near to it. -/
theorem shows_of_near {d : Decimal} {x : Binary64} (hsign : x.negative = false) (hx : x.Finite)
    (hnear : Near (1 / 2 ^ 48) x.written (d.magnitude / 10 ^ d.scale))
    (hexact : d.Short → x.written = d.magnitude / 10 ^ d.scale) :
    (if d.negative then x.neg else x).Shows d := by
  have hvalue : d.value = signOf d.negative * (d.magnitude / 10 ^ d.scale) := by
    rw [value_eq, mul_div_assoc]
  have hwritten := Json.Literal.written_of_sign hsign d.negative
  refine ⟨?_, ?_, ?_⟩
  · split
    · exact ⟨hx.significand_lt, hx.exponent_ge, hx.exponent_le, hx.full⟩
    · exact hx
  · rw [hwritten, abs_value, hvalue, ← mul_sub, abs_mul, abs_signOf, one_mul]
    exact hnear.trans_eq (by ring)
  · intro hshort
    rw [hwritten, hvalue, hexact hshort]

theorem magnitude_lt_cast (d : Decimal) : (d.magnitude : ℚ) < 2 ^ 200 := by
  have : (d.magnitude : ℚ) < 2 ^ 96 := by exact_mod_cast d.magnitude_lt
  linarith

/-- Without places behind the point. -/
theorem shows_of_whole {d : Decimal} (hs : d.scale = 0) :
    ∃ x, d.toBinary64? = some x ∧ x.Shows d := by
  obtain ⟨x, hx, hsign, hfinite, -, hnear, hexact⟩ := ofNat?_near d.magnitude_lt_cast
  have hshows : (if d.negative then x.neg else x).Shows d := by
    refine shows_of_near hsign hfinite ?_ ?_ <;> rw [hs, pow_zero, div_one]
    · exact hnear
    · exact fun hshort => hexact hshort.1
  have hconvert : d.toBinary64? =
      some (if d.isZero then x else if d.negative then x.neg else x) := by
    simp only [toBinary64?, hs, if_true, hx, Option.bind_eq_bind, Option.bind_some,
      Option.pure_def]
  by_cases hzero : d.isZero = true
  · rw [hconvert, if_pos hzero]
    -- the zero of a whole number has no sign
    have hm : d.magnitude = 0 := eq_of_beq hzero
    have hvalue : d.value = 0 := value_eq_zero_iff.mpr hzero
    rw [hm] at hnear hexact
    have hwritten : x.written = 0 := by simpa using hexact (by decide)
    refine ⟨x, rfl, hfinite, ?_, fun _ => hwritten.trans hvalue.symm⟩
    rw [hwritten, hvalue]
    norm_num
  · rw [hconvert, if_neg hzero]
    exact ⟨_, rfl, hshows⟩

/-- Without anything behind the point but zeros. -/
theorem shows_of_zeros {d : Decimal} (hs : d.scale ≠ 0) (hf : d.magnitude % 10 ^ d.scale = 0) :
    ∃ x, d.toBinary64? = some x ∧ x.Shows d := by
  have hdvd := Nat.div_mul_cancel (Nat.dvd_of_mod_eq_zero hf)
  have hle : d.magnitude / 10 ^ d.scale ≤ d.magnitude := Nat.div_le_self _ _
  have hlt : ((d.magnitude / 10 ^ d.scale : Nat) : ℚ) < 2 ^ 200 :=
    lt_of_le_of_lt (by exact_mod_cast hle) d.magnitude_lt_cast
  have hvalue : ((d.magnitude / 10 ^ d.scale : Nat) : ℚ) = d.magnitude / 10 ^ d.scale := by
    rw [eq_div_iff (by positivity)]
    exact_mod_cast hdvd
  obtain ⟨x, hx, hsign, hfinite, -, hnear, hexact⟩ := ofNat?_near hlt
  obtain ⟨p, hp⟩ := exists_isPower d.scale_le
  have hzero : ofNat? 0 = some (Binary64.zero false) := by simp [ofNat?, ofRatio?]
  have hpower := hp.rounded
  rw [tenPow_eq] at hpower
  refine ⟨if d.negative then x.neg else x, ?_, ?_⟩
  · simp only [toBinary64?, if_neg hs, tenPow_eq, hx, hf, hzero, hpower, zero_div?,
      Option.bind_eq_bind, Option.bind_some]
    rfl
  · refine shows_of_near hsign hfinite (hvalue ▸ hnear) fun hshort => ?_
    exact (hexact (Nat.lt_of_le_of_lt hle hshort.1)).trans hvalue

/-- **Every decimal has a floating-point number that shows it.** -/
theorem shows_of_toBinary64? (d : Decimal) : ∃ x, d.toBinary64? = some x ∧ x.Shows d := by
  by_cases hs : d.scale = 0
  · exact shows_of_whole hs
  by_cases hf : d.magnitude % 10 ^ d.scale = 0
  · exact shows_of_zeros hs hf
  have hlt : d.magnitude % 10 ^ d.scale < 10 ^ d.scale := Nat.mod_lt _ (by positivity)
  have hsplit := Nat.div_add_mod' d.magnitude (10 ^ d.scale)
  obtain ⟨p, ε, hp, hε, hexact⟩ : ∃ (p : Binary64) (ε : ℚ), p.IsPower d.scale ε ∧ PowerError ε ∧
      (d.scale ≤ 22 → ε = 0) := by
    by_cases hsmall : d.scale ≤ 22
    · obtain ⟨p, hp⟩ := exists_isPower_zero hsmall
      exact ⟨p, 0, hp, .exact, fun _ => rfl⟩
    · obtain ⟨p, hp⟩ := exists_isPower d.scale_le
      exact ⟨p, roundoff, hp, .rounded, fun h => absurd h hsmall⟩
  obtain ⟨whole, part, fraction, sum, scaled, rounded, x, hwhole, hpart, hfraction, hzero, hsum,
    hscaled, hround, hx, hsign, hfinite, hnear, hshort⟩ :=
    convert_shows (hsplit.symm ▸ d.magnitude_lt) (Nat.pos_of_ne_zero hf) hlt d.scale_le hp hε
  rw [hsplit] at hnear hshort
  obtain ⟨ten, hten, hplaces⟩ : ∃ ten, ofNat? 10 = some ten ∧ ten.power? d.scale = some p :=
    Option.bind_eq_some_iff.mp ((power?_ten d.scale_le).trans hp.rounded)
  refine ⟨if d.negative then x.neg else x, ?_, shows_of_near hsign hfinite hnear fun h =>
    hshort (hexact h.2) h.1⟩
  have hpower := hp.rounded
  rw [tenPow_eq] at hpower
  simp only [toBinary64?, if_neg hs, tenPow_eq, hwhole, hpart, hpower, hfraction, hzero, hsum, hten,
    hplaces, hscaled, hround, hx, Option.bind_eq_bind, Option.bind_some, Bool.false_eq_true,
    if_false, Option.pure_def]

end Decimal

end SpotGateway
