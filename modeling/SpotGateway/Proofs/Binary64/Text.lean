import SpotGateway.Proofs.Binary64.Shortest
import SpotGateway.Proofs.Decimal.Reading

/-!
# Text of floating-point numbers, read as decimals

The text of a floating-point number shows its shortest digits.  Read back as a decimal it gives that
number, to 28 places, unless it is below the smallest decimal or too large.

* `Binary64.written` — the number that the text shows;
* `Binary64.text_zero`, `Binary64.text_positional`, `Binary64.text_scientific` — the layouts;
* `Binary64.value_of_ofText?`, `Binary64.ofText?_isSome` — the text read as a decimal.
-/

set_option autoImplicit false

namespace SpotGateway.Binary64

open Decimal (plain plainValue powerText moved shifted Holds)

variable {x : Binary64}

/-- The number that the shortest digits stand for. -/
def written (x : Binary64) : ℚ :=
  if x.isZero then 0 else signOf x.negative * (x.shortest.1 * 10 ^ x.shortest.2)

/-- The number is zero or not below the smallest decimal. -/
def InReach (q : ℚ) : Prop := q = 0 ∨ 1 ≤ |q| * 10 ^ maxScale

theorem significand_ne_zero (h : ¬ x.isZero = true) : x.significand ≠ 0 :=
  fun hzero => h (beq_iff_eq.mpr hzero)

theorem abs_written (h : ¬ x.isZero = true) :
    |x.written| = x.shortest.1 * 10 ^ x.shortest.2 := by
  have := ten_zpow_pos x.shortest.2
  rw [written, if_neg h, abs_mul, abs_signOf, one_mul, abs_of_nonneg (by positivity)]

theorem written_of_neg (h : ¬ x.isZero = true) (hp : x.shortest.2 ≤ 0) :
    x.written = signOf x.negative * x.shortest.1 / 10 ^ (-x.shortest.2).toNat := by
  rw [written, if_neg h, ten_zpow, show x.shortest.2.toNat = 0 by omega, cast_tenPow, cast_tenPow,
    pow_zero, mul_one_div, mul_div_assoc]

theorem written_of_nonneg (h : ¬ x.isZero = true) (hp : 0 ≤ x.shortest.2) :
    x.written = signOf x.negative * (x.shortest.1 * 10 ^ x.shortest.2.toNat : Nat) / 10 ^ 0 := by
  rw [written, if_neg h, ten_zpow, show (-x.shortest.2).toNat = 0 by omega, cast_tenPow,
    cast_tenPow, pow_zero, div_one, div_one]
  push_cast
  rfl

/-! ## Layouts -/

theorem signText_toList (negative : Bool) :
    (if negative then "-" else "" : String).toList = if negative then ['-'] else [] := by
  cases negative <;> rfl

/-- Positional text shows the shortest digits. -/
theorem text_positional (h : ¬ x.isZero = true) (hpoint : Layout.json.positional x.point = true) :
    ∃ (n : Nat) (fs : List Char), (∀ c ∈ fs, c.isDigit = true) ∧
      (x.text .json).toList = plain x.negative (Nat.toDigits 10 n) fs ∧
        plainValue x.negative (Nat.toDigits 10 n) fs = x.written := by
  have htext : x.text .json = (if x.negative then "-" else "") ++
      positionalText x.shortest.1 x.shortest.2 true := by
    rw [text, if_neg h]
    simp only [hpoint, if_true]
    rfl
  obtain ⟨c, hc⟩ : ∃ c, x.shortest.1 = c := ⟨_, rfl⟩
  obtain ⟨p, hp⟩ : ∃ p, x.shortest.2 = p := ⟨_, rfl⟩
  rw [written, if_neg h, htext, positionalText, hc, hp]
  rcases Int.lt_or_le p 0 with hneg | hpos
  · have hplaces : 0 < (-p).toNat := by omega
    obtain ⟨fs, hfs, hdigits, hlength, hvalue⟩ := Text.padded_spec hplaces
      (Nat.mod_lt c (Nat.pow_pos (by decide)))
    refine ⟨c / tenPow (-p).toNat, fs, hdigits, ?_, ?_⟩
    · have hne : fs ≠ [] := List.ne_nil_of_length_pos (hlength ▸ hplaces)
      rw [if_neg (show ¬ 0 ≤ p by omega), plain, if_neg hne]
      simp only [String.toList_append, signText_toList, Text.decimal, String.toList_ofList,
        tenPow_eq, hfs, List.append_assoc]
      rfl
    · rw [plainValue, Nat.ofDigitChars_append, Text.ofDigitChars_eq, hvalue,
        Text.ofDigitChars_toDigits, hlength, tenPow_eq, Nat.div_add_mod', mul_div_assoc,
        ten_zpow, show p.toNat = 0 by omega, cast_tenPow, cast_tenPow, pow_zero, mul_one_div]
  · refine ⟨c * tenPow p.toNat, ['0'], Text.isDigit_of_mem_zero, ?_, ?_⟩
    · rw [if_pos hpos, plain, if_neg (List.cons_ne_nil _ _)]
      simp only [String.toList_append, signText_toList, Text.decimal, String.toList_ofList]
      rfl
    · rw [plainValue, Nat.ofDigitChars_append, Text.ofDigitChars_toDigits, Text.ofDigitChars_cons,
        Nat.ofDigitChars_nil, ten_zpow, show (-p).toNat = 0 by omega,
        show Text.digitOf '0' = 0 from rfl]
      push_cast [cast_tenPow]
      simp
      ring

/-- Scientific text shows the shortest digits with one of them before the point. -/
theorem text_scientific (h : ¬ x.isZero = true) (hpoint : ¬ Layout.json.positional x.point = true) :
    ∃ (w : Char) (fs cs : List Char) (down : Bool), w.isDigit = true ∧
      (∀ c ∈ fs, c.isDigit = true) ∧ cs ≠ [] ∧ (∀ c ∈ cs, c.isDigit = true) ∧
      (x.text .json).toList = plain x.negative [w] fs ++ 'e' :: powerText down (!down) cs ∧
        Nat.ofDigitChars 10 ([w] ++ fs) 0 = x.shortest.1 ∧
        fs.length + 1 = (Nat.toDigits 10 x.shortest.1).length ∧
        x.shortest.2 + fs.length = if down then -(Nat.ofDigitChars 10 cs 0 : Int) else
          Nat.ofDigitChars 10 cs 0 := by
  have htext : x.text .json = (if x.negative then "-" else "") ++
      scientificText x.shortest.1 x.shortest.2 := by
    rw [text, if_neg h]
    simp only [hpoint]
    rfl
  obtain ⟨w, fs, hds⟩ : ∃ w fs, Nat.toDigits 10 x.shortest.1 = w :: fs :=
    List.exists_cons_of_ne_nil Nat.toDigits_ne_nil
  have hdigits := hds ▸ Text.isDigit_of_mem_toDigits (n := x.shortest.1)
  obtain ⟨hw, hfs⟩ := List.forall_mem_cons.mp hdigits
  refine ⟨w, fs, Nat.toDigits 10 (x.shortest.2 + fs.length).natAbs,
    decide (x.shortest.2 + fs.length < 0), hw, hfs, Nat.toDigits_ne_nil,
    Text.isDigit_of_mem_toDigits, ?_, ?_, by rw [hds, List.length_cons], ?_⟩
  · have hfraction : (if fs.length + 1 = 1 then "" else "." ++ String.ofList fs).toList =
        if fs = [] then [] else '.' :: fs := by
      cases fs with
      | nil => rfl
      | cons c cs => simp
    have hsign : (if x.shortest.2 + fs.length < 0 then "-" else "+" : String).toList =
        if x.shortest.2 + fs.length < 0 then ['-'] else ['+'] := by
      split <;> rfl
    rw [htext, scientificText, hds]
    simp only [List.length_cons, Nat.add_sub_cancel, String.toList_append, signText_toList,
      List.drop_succ_cons, List.drop_zero, List.take_succ_cons, List.take_zero, hfraction, hsign,
      Text.decimal, String.toList_ofList, plain, powerText]
    rw [show "e".toList = ['e'] from rfl]
    by_cases hneg : x.shortest.2 + fs.length < 0 <;> simp [hneg]
  · rw [List.singleton_append, ← hds, Text.ofDigitChars_toDigits]
  · rw [Text.ofDigitChars_toDigits]
    split
    · rename_i hneg
      have := of_decide_eq_true hneg
      omega
    · rename_i hpos
      have : ¬ x.shortest.2 + fs.length < 0 := fun h => hpos (decide_eq_true h)
      omega

/-! ## Reading the text -/

theorem abs_moved (down : Bool) (k : Nat) (q : ℚ) : |moved down k q| = moved down k |q| := by
  have : |(10 : ℚ) ^ k| = 10 ^ k := abs_of_pos (by positivity)
  cases down with
  | true => exact (abs_div _ _).trans (by rw [this]; rfl)
  | false => exact (abs_mul _ _).trans (by rw [this]; rfl)

/-- Zeros show a zero on either side of the point. -/
theorem text_zero (h : x.isZero = true) :
    (x.text .json).toList = plain x.negative ['0'] ['0'] ∧
      plainValue x.negative ['0'] ['0'] = x.written := by
  constructor
  · rw [text, if_pos h, String.toList_append, signText_toList]
    rfl
  · rw [plainValue, show Nat.ofDigitChars 10 (['0'] ++ ['0']) 0 = 0 from rfl, written, if_pos h]
    simp

/-- Zeros and positional text are read as the number that they show. -/
theorem ofText?_of_positional (hx : x.Finite)
    (hpoint : x.isZero = true ∨ Layout.json.positional x.point = true) :
    InReach x.written ∧ ∃ d, Decimal.ofText? (x.text .json) = some d ∧ d.value = x.written := by
  by_cases h : x.isZero = true
  · have hwritten : x.written = 0 := if_pos h
    obtain ⟨htext, hvalue⟩ := text_zero h
    refine ⟨.inl hwritten, ?_⟩
    rw [← hvalue]
    refine Decimal.ofText?_plain htext (List.cons_ne_nil _ _) Text.isDigit_of_mem_zero
      Text.isDigit_of_mem_zero ?_
    rw [hvalue, hwritten]
    exact ⟨Decimal.zero, by simp [Decimal.value, Decimal.coefficient, Decimal.zero]⟩
  · have hpoint := hpoint.resolve_left h
    obtain ⟨hlow, hhigh⟩ : -4 ≤ x.point ∧ x.point ≤ 16 := of_decide_eq_true hpoint
    obtain ⟨hne, hc, hp, hfirst, hlast⟩ := shortest_bounds hx (significand_ne_zero h)
    obtain ⟨n, fs, hfdigits, htext, hvalue⟩ := text_positional h hpoint
    have habs := abs_written h
    have hlimit : 10 ^ 17 < coefficientLimit := by decide
    have hholds : Holds x.written := by
      rcases Int.lt_or_le x.shortest.2 0 with hneg | hpos
      · rw [written_of_neg h hneg.le]
        exact Decimal.holds_of_digits _ (by omega) (by unfold maxScale; omega)
      · rw [written_of_nonneg h hpos]
        refine Decimal.holds_of_digits _ (Nat.lt_of_le_of_lt ?_ hlimit) (Nat.zero_le _)
        have hlarge : (10 : ℚ) ^ x.point ≤ 10 ^ (17 : Int) :=
          zpow_le_zpow_right₀ (by norm_num) (by omega)
        have := hlast.trans hlarge
        rw [ten_zpow x.shortest.2, show (-x.shortest.2).toNat = 0 by omega, cast_tenPow,
          cast_tenPow, pow_zero, div_one] at this
        exact_mod_cast this
    constructor
    · right
      calc (1 : ℚ) ≤ 10 ^ (x.point - 1 + maxScale) :=
            one_le_zpow₀ (by norm_num) (by unfold maxScale; omega)
        _ = 10 ^ (x.point - 1) * 10 ^ maxScale := by rw [zpow_add₀ (by norm_num), zpow_natCast]
        _ ≤ |x.written| * 10 ^ maxScale := by
            rw [habs]
            exact mul_le_mul_of_nonneg_right hfirst (by positivity)
    · rw [← hvalue] at hholds ⊢
      exact Decimal.ofText?_plain htext Nat.toDigits_ne_nil Text.isDigit_of_mem_toDigits hfdigits
        hholds

theorem toDigits_bounds {c l : Nat} (hc : c ≠ 0) (h : l + 1 = (Nat.toDigits 10 c).length) :
    10 ^ l ≤ c ∧ c < 10 ^ (l + 1) := by
  refine ⟨?_, (Nat.length_toDigits_le_iff (by decide) (Nat.succ_pos _)).mp h.ge⟩
  by_contra hlt
  rcases Nat.eq_zero_or_pos l with rfl | hpos
  · omega
  · have := (Nat.length_toDigits_le_iff (by decide : 1 < 10) hpos).mpr (not_le.mp hlt)
    omega

/-- The number shown is the one with a digit before the point, with the point moved. -/
theorem moved_eq_written (h : ¬ x.isZero = true) {down : Bool} {k l : Nat}
    (hpower : x.shortest.2 + l = if down then -(k : Int) else k) :
    moved down k (signOf x.negative * x.shortest.1 / 10 ^ l) = x.written := by
  rw [written, if_neg h]
  cases down with
  | true =>
    rw [show x.shortest.2 = -(k : Int) - l by rw [if_pos rfl] at hpower; omega,
      zpow_sub₀ (by norm_num), zpow_neg, zpow_natCast, zpow_natCast, moved, if_pos rfl]
    field_simp
  | false =>
    rw [show x.shortest.2 = (k : Int) - l by rw [if_neg (by decide)] at hpower; omega,
      zpow_sub₀ (by norm_num), zpow_natCast, zpow_natCast, moved, if_neg (by decide)]
    field_simp

/-- Not below one and not positional, a number has all its digits before the point. -/
theorem shortest_nonneg (hx : x.Finite) (h : ¬ x.isZero = true)
    (hpoint : ¬ Layout.json.positional x.point = true) (hone : 1 ≤ |x.written|) :
    0 ≤ x.shortest.2 := by
  obtain ⟨-, -, hp, -, hlast⟩ := shortest_bounds hx (significand_ne_zero h)
  have hpos : 0 ≤ x.point := by
    by_contra hneg
    have : (10 : ℚ) ^ x.point < 1 := zpow_lt_one_of_neg₀ (by norm_num) (by omega)
    rw [abs_written h] at hone
    linarith
  have : ¬ (-4 ≤ x.point ∧ x.point ≤ 16) := fun hin => hpoint (decide_eq_true hin)
  omega

/-- Scientific text is read as its positional part with the point moved. -/
theorem ofText?_of_scientific (hx : x.Finite) (h : ¬ x.isZero = true)
    (hpoint : ¬ Layout.json.positional x.point = true) :
    ∃ (d : Decimal) (down : Bool) (k : Nat), Decimal.ofText? (x.text .json) = shifted down k d ∧
      1 ≤ |d.value| ∧ |d.value| < 10 ∧ moved down k d.value = x.written ∧
        (down = false → 0 ≤ x.shortest.2) := by
  obtain ⟨hne, hc, -⟩ := shortest_bounds hx (significand_ne_zero h)
  obtain ⟨w, fs, cs, down, hw, hfs, hcs, hcdigits, htext, hdigits, hlength, hpower⟩ :=
    text_scientific h hpoint
  obtain ⟨hlow, hhigh⟩ := toDigits_bounds hne hlength
  have hws : ∀ c ∈ [w], c.isDigit = true := by simpa using hw
  have hvalue : plainValue x.negative [w] fs =
      signOf x.negative * x.shortest.1 / 10 ^ fs.length := by
    rw [plainValue, hdigits]
  have hplaces : fs.length ≤ 17 := (Nat.pow_le_pow_iff_right (by decide)).mp (hlow.trans hc)
  have hlimit : 10 ^ 17 < coefficientLimit := by decide
  have hholds : Holds (plainValue x.negative [w] fs) := by
    rw [hvalue]
    exact Decimal.holds_of_digits _ (by omega) (by unfold maxScale; omega)
  obtain ⟨d, hd, hdvalue⟩ := Decimal.ofPlain?_plain (List.cons_ne_nil _ _) hws hfs hholds
  rw [hvalue] at hdvalue
  have hplace : (0 : ℚ) < 10 ^ fs.length := by positivity
  have habs : |d.value| = x.shortest.1 / 10 ^ fs.length := by
    rw [hdvalue, abs_div, abs_mul, abs_signOf, one_mul, Nat.abs_cast, abs_of_pos hplace]
  have hone : 1 ≤ |d.value| := by
    rw [habs, one_le_div hplace]
    exact_mod_cast hlow
  have hten : |d.value| < 10 := by
    have : (x.shortest.1 : ℚ) < (10 ^ (fs.length + 1) : Nat) := by exact_mod_cast hhigh
    push_cast at this
    rwa [habs, div_lt_iff₀ hplace, ← pow_succ']
  have hmoved : moved down (Nat.ofDigitChars 10 cs 0) d.value = x.written := by
    rw [hdvalue]
    exact moved_eq_written h hpower
  refine ⟨d, down, Nat.ofDigitChars 10 cs 0, ?_, hone, hten, hmoved, ?_⟩
  · rw [Decimal.ofText?_scientific htext hws hfs (.inl rfl) hcs hcdigits, hd]
    rfl
  · rintro rfl
    refine shortest_nonneg hx h hpoint ?_
    rw [← hmoved, abs_moved]
    exact one_le_mul_of_one_le_of_one_le hone (one_le_pow₀ (by norm_num))

/-- **A decimal read from the text of a floating-point number is the number that the text shows,
to 28 places.** -/
theorem value_of_ofText? (hx : x.Finite) {d : Decimal}
    (h : Decimal.ofText? (x.text .json) = some d) :
    InReach x.written ∧ d.value = nearestPlace x.written := by
  by_cases hpoint : x.isZero = true ∨ Layout.json.positional x.point = true
  · obtain ⟨hreach, d', hd', hvalue⟩ := ofText?_of_positional hx hpoint
    obtain rfl : d' = d := Option.some.inj (hd'.symm.trans h)
    have hholds : Holds x.written := ⟨d', hvalue⟩
    exact ⟨hreach, hvalue.trans hholds.nearestPlace_eq.symm⟩
  · obtain ⟨hzero, hpoint⟩ := not_or.mp hpoint
    obtain ⟨d', down, k, htext, hone, -, hmoved, -⟩ := ofText?_of_scientific hx hzero hpoint
    obtain ⟨hk, hvalue⟩ := Decimal.value_of_shifted (htext.symm.trans h)
    refine ⟨.inr ?_, by rw [hvalue, hmoved]⟩
    have hpow : (10 : ℚ) ^ k ≤ 10 ^ maxScale := pow_le_pow_right₀ (by norm_num) hk
    have hpos : (0 : ℚ) < 10 ^ k := by positivity
    rw [← hmoved, abs_moved]
    cases down with
    | true =>
      rw [moved, if_pos rfl, div_mul_eq_mul_div, one_le_div hpos]
      exact hpow.trans (le_mul_of_one_le_left (by positivity) hone)
    | false =>
      have hk1 : (1 : ℚ) ≤ 10 ^ k := one_le_pow₀ (by norm_num)
      have hmax : (1 : ℚ) ≤ 10 ^ maxScale := one_le_pow₀ (by norm_num)
      exact one_le_mul_of_one_le_of_one_le (one_le_mul_of_one_le_of_one_le hone hk1) hmax

/-- **Text that shows a number within reach is read, if a decimal stands for the number to 28
places.** -/
theorem ofText?_isSome (hx : x.Finite) (hreach : InReach x.written)
    (hholds : Holds (nearestPlace x.written)) :
    ∃ d, Decimal.ofText? (x.text .json) = some d := by
  by_cases hpoint : x.isZero = true ∨ Layout.json.positional x.point = true
  · obtain ⟨-, d, hd, -⟩ := ofText?_of_positional hx hpoint
    exact ⟨d, hd⟩
  · obtain ⟨hzero, hpoint⟩ := not_or.mp hpoint
    obtain ⟨d, down, k, htext, hone, hten, hmoved, hwhole⟩ := ofText?_of_scientific hx hzero hpoint
    rw [htext]
    refine Decimal.shifted_isSome ?_ (hmoved.symm ▸ hholds)
    by_contra hk
    have hpow : (10 : ℚ) ^ (maxScale + 1) ≤ 10 ^ k :=
      pow_le_pow_right₀ (by norm_num) (not_le.mp hk)
    have hpos : (0 : ℚ) < 10 ^ k := by positivity
    cases down with
    | true =>
      have habs : |x.written| = |d.value| / 10 ^ k := by rw [← hmoved, abs_moved]; rfl
      rcases hreach with hzero | hreach
      · rw [hzero, abs_zero, eq_comm, div_eq_zero_iff] at habs
        rcases habs with habs | habs <;> linarith
      · rw [habs, div_mul_eq_mul_div, one_le_div hpos] at hreach
        have : |d.value| * 10 ^ maxScale < 10 * 10 ^ maxScale :=
          mul_lt_mul_of_pos_right hten (by positivity)
        rw [pow_succ] at hpow
        linarith
    | false =>
      have habs : |x.written| = |d.value| * 10 ^ k := by rw [← hmoved, abs_moved]; rfl
      have hholds : Holds x.written := by
        rw [written_of_nonneg hzero (hwhole rfl)] at hholds ⊢
        rwa [nearestPlace_of_places _ _ (Nat.zero_le _)] at hholds
      have hlt := hholds.abs_lt
      have hlimit : (coefficientLimit : ℚ) < 10 ^ (maxScale + 1) := by
        exact_mod_cast (by decide : coefficientLimit < 10 ^ (maxScale + 1))
      have : 1 * 10 ^ k ≤ |d.value| * 10 ^ k := mul_le_mul_of_nonneg_right hone hpos.le
      linarith

end SpotGateway.Binary64
