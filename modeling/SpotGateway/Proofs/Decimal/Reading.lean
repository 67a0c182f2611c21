import SpotGateway.Proofs.Decimal.Value
import SpotGateway.Proofs.Text.Digits

/-!
# Decimals read from text

Positional text of a number that some decimal stands for is read as exactly that number, however
many zeros follow its digits.  Scientific text moves the point of such a number.

* `Decimal.Reading.run_whole`, `Decimal.Reading.run_overflow`, `Decimal.Reading.run_fraction` — the
  two parts of positional text;
* `Decimal.plain`, `Decimal.plainValue`, `Decimal.ofPlain?_plain`, `Decimal.ofPlain?_of_large` —
  positional text, the number that it stands for, and how it is read;
* `Decimal.IsPositional`, `Decimal.isPositional_of_ofPlain?` — the characters of positional text, an
  exponent mark not being one of them;
* `Decimal.ofScientific?_eq`, `Decimal.value_of_shifted` — text with an exponent;
* `Decimal.ofText?_plain`, `Decimal.ofText?_scientific` — either form.
-/

set_option autoImplicit false

namespace SpotGateway

namespace Decimal

/-- A character that positional text can have. -/
def IsPositional (c : Char) : Prop := c.isDigit = true ∨ c ∈ ['.', '_', '+', '-']

instance (c : Char) : Decidable (IsPositional c) := inferInstanceAs (Decidable (_ ∨ _))

namespace Reading

variable {negative started : Bool} {n : Nat} {cs rest : List Char}

/-- Nothing but digits and underscores follows the digit that decides. -/
theorem isPositional_of_settle {r : Reading} {digit : Nat} {after : List Char} {d : Decimal}
    (h : r.settle digit after = some d) : ∀ c ∈ after, IsPositional c := by
  unfold settle at h
  split at h
  · rename_i hall
    intro c hc
    have hone := List.all_eq_true.mp hall c hc
    simp only [Bool.or_eq_true, decide_eq_true_eq, Option.isSome_iff_exists] at hone
    rcases hone with rfl | ⟨_, hdigit⟩
    · decide
    · exact .inl (Text.digit?_eq_some_iff.mp hdigit).1
  · cases h

theorem isPositional_of_run {r : Reading} {d : Decimal} (h : r.run cs = some d) :
    ∀ c ∈ cs, IsPositional c := by
  induction cs generalizing r with
  | nil => simp
  | cons c cs ih =>
    rw [List.forall_mem_cons]
    unfold run at h
    split at h
    · rename_i digit hdigit
      refine ⟨.inl (Text.digit?_eq_some_iff.mp hdigit).1, ?_⟩
      simp only at h
      split at h
      · exact ih h
      · split at h
        · exact isPositional_of_settle h
        · cases h
    · split at h
      · rename_i hpoint
        subst hpoint
        refine ⟨by decide, ?_⟩
        split at h
        · cases h
        · exact ih h
      · split at h
        · rename_i hbetween
          obtain ⟨rfl, -⟩ := hbetween
          refine ⟨by decide, ?_⟩
          split at h
          · exact isPositional_of_settle h
          · exact ih h
        · cases h

/-- Digits before the point, as long as they fit. -/
theorem run_whole (h : ∀ c ∈ cs, c.isDigit = true)
    (hfits : Nat.ofDigitChars 10 cs n < coefficientLimit) :
    run ⟨negative, n, 0, false, started⟩ (cs ++ rest) =
      run ⟨negative, Nat.ofDigitChars 10 cs n, 0, false, started || !cs.isEmpty⟩ rest := by
  induction cs generalizing n started with
  | nil => simp
  | cons c cs ih =>
    have hdigit := Text.digit?_of_isDigit (h c List.mem_cons_self)
    rw [Text.ofDigitChars_cons] at hfits
    have hnext : n * 10 + Text.digitOf c < coefficientLimit := by
      rw [Text.ofDigitChars_eq] at hfits
      have := Nat.le_mul_of_pos_right (n * 10 + Text.digitOf c)
        (Nat.pow_pos (n := cs.length) (show 0 < 10 by decide))
      omega
    rw [List.cons_append, run, hdigit]
    simp only [hnext, Bool.false_eq_true, false_and, not_false_eq_true, and_self, if_true, if_false]
    rw [ih (fun c hc => h c (List.mem_cons_of_mem _ hc)) hfits, Text.ofDigitChars_cons]
    simp

/-- Digits before the point that do not fit. -/
theorem run_overflow (h : ∀ c ∈ cs, c.isDigit = true) (hn : n < coefficientLimit)
    (hlarge : coefficientLimit ≤ Nat.ofDigitChars 10 cs n) :
    run ⟨negative, n, 0, false, started⟩ (cs ++ rest) = none := by
  induction cs generalizing n started with
  | nil =>
    rw [Nat.ofDigitChars_nil] at hlarge
    omega
  | cons c cs ih =>
    have hdigit := Text.digit?_of_isDigit (h c List.mem_cons_self)
    rw [Text.ofDigitChars_cons] at hlarge
    rw [List.cons_append, run, hdigit]
    simp only [Bool.false_eq_true, false_and, not_false_eq_true, and_true, if_false]
    split
    · rename_i hnext
      exact ih (fun c hc => h c (List.mem_cons_of_mem _ hc)) hnext hlarge
    · rfl

theorem finish_of_started (negative fractional : Bool) {s : Nat} (hn : n < coefficientLimit)
    (hs : s ≤ maxScale) : ∃ d, finish ⟨negative, n, s, fractional, true⟩ = some d ∧
      d.value = signOf negative * n / 10 ^ s := by
  have habs : (if negative then -(n : Int) else n).natAbs = n := by
    split <;> simp
  obtain ⟨d, hd⟩ : ∃ d, make? (if negative then -(n : Int) else n) s = some d :=
    signed?_isSome _ (habs.trans_lt hn) hs
  refine ⟨d, hd, ?_⟩
  rw [value_of_make? hd]
  cases negative <;> simp [signOf]

/-- Where no further digit fits, a number that some decimal stands for has only zeros left. -/
theorem rest_eq_zero {c : Char} {s : Nat} (h : ∀ c' ∈ c :: cs, c'.isDigit = true)
    (hs : s ≤ maxScale)
    (hfull : s = maxScale ∨ coefficientLimit ≤ n * 10 + Text.digitOf c)
    (hholds : Holds (Nat.ofDigitChars 10 (c :: cs) n / 10 ^ (s + (cs.length + 1)))) :
    Nat.ofDigitChars 10 (c :: cs) 0 = 0 := by
  obtain ⟨m, t, hm, ht, hvalue⟩ := hholds.abs_eq
  rw [abs_of_nonneg (by positivity), div_eq_div_iff (by positivity) (by positivity)] at hvalue
  have hvalue : Nat.ofDigitChars 10 (c :: cs) n * 10 ^ t = m * 10 ^ (s + (cs.length + 1)) := by
    exact_mod_cast hvalue
  rcases Nat.lt_or_ge s t with hst | hts
  · -- more places are needed than there are, so the next digit would have to fit
    exfalso
    have hlarge : coefficientLimit ≤ n * 10 + Text.digitOf c := by
      rcases hfull with hfull | hfull
      · omega
      · exact hfull
    obtain ⟨j, rfl⟩ := Nat.exists_eq_add_of_lt hst
    have hdigits : coefficientLimit * 10 ^ cs.length ≤ Nat.ofDigitChars 10 (c :: cs) n := by
      rw [Text.ofDigitChars_cons, Text.ofDigitChars_eq]
      exact Nat.le_add_right_of_le (Nat.mul_le_mul_right _ hlarge)
    have hbound : coefficientLimit * 10 ^ (s + (cs.length + 1)) ≤ m * 10 ^ (s + (cs.length + 1)) :=
      calc coefficientLimit * 10 ^ (s + (cs.length + 1))
          = coefficientLimit * 10 ^ cs.length * 10 ^ (s + 1) := by ring
        _ ≤ Nat.ofDigitChars 10 (c :: cs) n * 10 ^ (s + j + 1) :=
          Nat.mul_le_mul hdigits (Nat.pow_le_pow_right (by decide) (by omega))
        _ = m * 10 ^ (s + (cs.length + 1)) := hvalue
    have := Nat.le_of_mul_le_mul_right hbound (by positivity)
    omega
  · obtain ⟨j, rfl⟩ := Nat.exists_eq_add_of_le hts
    have hmultiple : Nat.ofDigitChars 10 (c :: cs) n = m * 10 ^ j * 10 ^ (cs.length + 1) := by
      refine Nat.eq_of_mul_eq_mul_right (by positivity : 0 < 10 ^ t) ?_
      rw [hvalue]
      ring
    have hlt := Text.ofDigitChars_lt h
    rw [Text.ofDigitChars_eq] at hmultiple
    rw [List.length_cons] at hmultiple hlt
    have := congrArg (· % 10 ^ (cs.length + 1)) hmultiple
    simpa [Nat.mod_eq_of_lt hlt] using this

/-- Digits behind the point, of a number that some decimal stands for. -/
theorem run_fraction (negative : Bool) {s : Nat} (h : ∀ c ∈ cs, c.isDigit = true)
    (hn : n < coefficientLimit) (hs : s ≤ maxScale)
    (hholds : Holds (Nat.ofDigitChars 10 cs n / 10 ^ (s + cs.length))) :
    ∃ d, run ⟨negative, n, s, true, true⟩ cs = some d ∧
      d.value = signOf negative * Nat.ofDigitChars 10 cs n / 10 ^ (s + cs.length) := by
  induction cs generalizing n s with
  | nil => exact finish_of_started negative true hn hs
  | cons c cs ih =>
    have hrest : ∀ c ∈ cs, c.isDigit = true := fun c hc => h c (List.mem_cons_of_mem _ hc)
    rw [List.length_cons] at hholds ⊢
    rw [run, Text.digit?_of_isDigit (h c List.mem_cons_self)]
    by_cases hnext : n * 10 + Text.digitOf c < coefficientLimit ∧ ¬ maxScale ≤ s
    · simp only [hnext, not_false_eq_true, and_self, true_and, if_true]
      rw [Text.ofDigitChars_cons, show s + (cs.length + 1) = s + 1 + cs.length by ring]
        at hholds ⊢
      exact ih hrest hnext.1 (by omega) hholds
    · have hzero := rest_eq_zero h hs (by omega) hholds
      have hc : Text.digitOf c = 0 := by
        rw [Text.ofDigitChars_cons, Text.ofDigitChars_eq, Nat.zero_mul, Nat.zero_add] at hzero
        simpa using Nat.eq_zero_of_add_eq_zero_right hzero
      have hall : (cs.all fun c => c = '_' || (Text.digit? c).isSome) = true := by
        rw [List.all_eq_true]
        intro c' hc'
        simp [Text.digit?_of_isDigit (hrest c' hc')]
      obtain ⟨d, hd, hvalue⟩ := finish_of_started negative true hn hs
      refine ⟨d, ?_, ?_⟩
      · simp only [true_and, hnext, if_false, if_true, settle, hall]
        rw [hc]
        exact hd
      · rw [hvalue, Text.ofDigitChars_eq, hzero, List.length_cons, pow_add 10 s]
        push_cast
        field_simp
        ring

end Reading

/-! ## Positional text -/

/-- A sign if there is one, digits, and a point with more digits if there are more. -/
def plain (negative : Bool) (ws fs : List Char) : List Char :=
  (if negative then ['-'] else []) ++ (ws ++ if fs = [] then [] else '.' :: fs)

/-- The number that positional digits stand for. -/
def plainValue (negative : Bool) (ws fs : List Char) : ℚ :=
  signOf negative * Nat.ofDigitChars 10 (ws ++ fs) 0 / 10 ^ fs.length

theorem ofPlain?_eq {negative : Bool} {ws fs : List Char} (hne : ws ≠ [])
    (hws : ∀ c ∈ ws, c.isDigit = true) : ofPlain? (plain negative ws fs) =
      Reading.run ⟨negative, 0, 0, false, false⟩ (ws ++ if fs = [] then [] else '.' :: fs) := by
  cases negative with
  | true => rfl
  | false =>
    obtain ⟨c, cs, rfl⟩ := List.exists_cons_of_ne_nil hne
    have hc := hws c List.mem_cons_self
    have hminus := Text.ne_of_isDigit hc (show '-'.isDigit = false by decide)
    have hplus := Text.ne_of_isDigit hc (show '+'.isDigit = false by decide)
    unfold ofPlain? plain
    split
    · rename_i heq
      simp only [Bool.false_eq_true, if_false, List.nil_append, List.cons_append,
        List.cons.injEq] at heq
      exact absurd heq.1 hminus
    · rename_i heq
      simp only [Bool.false_eq_true, if_false, List.nil_append, List.cons_append,
        List.cons.injEq] at heq
      exact absurd heq.1 hplus
    · rfl

theorem abs_plainValue (negative : Bool) (ws fs : List Char) : |plainValue negative ws fs| =
    Nat.ofDigitChars 10 fs (Nat.ofDigitChars 10 ws 0) / 10 ^ (0 + fs.length) := by
  rw [plainValue, abs_div, abs_mul, abs_signOf, one_mul, Nat.abs_cast, Nat.ofDigitChars_append,
    Nat.zero_add, abs_of_pos (by positivity : (0 : ℚ) < 10 ^ fs.length)]

/-- Numbers whose digits before the point are too many are not read. -/
theorem ofPlain?_of_large {negative : Bool} {ws fs : List Char} (hne : ws ≠ [])
    (hws : ∀ c ∈ ws, c.isDigit = true) (hfs : ∀ c ∈ fs, c.isDigit = true)
    (hlarge : (coefficientLimit : ℚ) ≤ |plainValue negative ws fs|) :
    ofPlain? (plain negative ws fs) = none := by
  have hwhole : coefficientLimit ≤ Nat.ofDigitChars 10 ws 0 := by
    rw [abs_plainValue, Text.ofDigitChars_eq, Nat.zero_add, le_div_iff₀ (by positivity)] at hlarge
    have hlarge : coefficientLimit * 10 ^ fs.length ≤
        Nat.ofDigitChars 10 ws 0 * 10 ^ fs.length + Nat.ofDigitChars 10 fs 0 := by
      exact_mod_cast hlarge
    have hlt := Text.ofDigitChars_lt hfs
    refine Nat.le_of_lt_succ (Nat.lt_of_mul_lt_mul_right (a := 10 ^ fs.length) ?_)
    rw [Nat.succ_mul]
    omega
  rw [ofPlain?_eq hne hws]
  exact Reading.run_overflow hws (by decide) hwhole

/-- Positional digits of a number that some decimal stands for are read as that number. -/
theorem ofPlain?_plain {negative : Bool} {ws fs : List Char} (hne : ws ≠ [])
    (hws : ∀ c ∈ ws, c.isDigit = true) (hfs : ∀ c ∈ fs, c.isDigit = true)
    (hholds : Holds (plainValue negative ws fs)) :
    ∃ d, ofPlain? (plain negative ws fs) = some d ∧ d.value = plainValue negative ws fs := by
  have hunsigned := abs_plainValue negative ws fs
  have hfits : Nat.ofDigitChars 10 ws 0 < coefficientLimit := by
    have hlt := hholds.abs_lt
    rw [hunsigned, Text.ofDigitChars_eq, Nat.zero_add, div_lt_iff₀ (by positivity)] at hlt
    have hlt : Nat.ofDigitChars 10 ws 0 * 10 ^ fs.length + Nat.ofDigitChars 10 fs 0 <
        coefficientLimit * 10 ^ fs.length := by exact_mod_cast hlt
    exact Nat.lt_of_mul_lt_mul_right (Nat.lt_of_le_of_lt (Nat.le_add_right _ _) hlt)
  rw [ofPlain?_eq hne hws, Reading.run_whole hws hfits, List.isEmpty_eq_false_iff.mpr hne,
    plainValue, Nat.ofDigitChars_append]
  split
  · rename_i hnil
    subst hnil
    exact Reading.finish_of_started negative false hfits (Nat.zero_le _)
  · obtain ⟨d, hd, hvalue⟩ := Reading.run_fraction negative hfs hfits
      (Nat.zero_le _) (hunsigned ▸ hholds.abs)
    rw [Nat.zero_add] at hvalue
    exact ⟨d, hd, hvalue⟩

/-! ## Scientific text -/

/-- Sign and digits of a power of ten. -/
def powerText (negative plus : Bool) (cs : List Char) : List Char :=
  if negative then '-' :: cs else if plus then '+' :: cs else cs

/-- The point moved by up to 28 places. -/
def shifted (negative : Bool) (k : Nat) (d : Decimal) : Option Decimal :=
  if k ≤ maxScale then (if negative then d.shiftDown k else d.shiftUp k) else none

/-- The number with its point moved. -/
def moved (negative : Bool) (k : Nat) (q : ℚ) : ℚ :=
  if negative then q / 10 ^ k else q * 10 ^ k

theorem isPositional_of_ofPlain? {cs : List Char} {d : Decimal} (h : ofPlain? cs = some d) :
    ∀ c ∈ cs, IsPositional c := by
  unfold ofPlain? at h
  split at h
  · exact List.forall_mem_cons.mpr ⟨by decide, Reading.isPositional_of_run h⟩
  · exact List.forall_mem_cons.mpr ⟨by decide, Reading.isPositional_of_run h⟩
  · exact Reading.isPositional_of_run h

/-- Text with an exponent mark in it is not positional. -/
theorem ofPlain?_of_mark {c : Char} (hc : c = 'e' ∨ c = 'E') {cs : List Char} (hmem : c ∈ cs) :
    ofPlain? cs = none := by
  cases h : ofPlain? cs with
  | none => rfl
  | some d =>
    have hpositional := isPositional_of_ofPlain? h c hmem
    rcases hc with rfl | rfl
    · exact absurd hpositional (by decide)
    · exact absurd hpositional (by decide)

theorem mem_plain {negative : Bool} {ws fs : List Char} (hws : ∀ c ∈ ws, c.isDigit = true)
    (hfs : ∀ c ∈ fs, c.isDigit = true) :
    ∀ c ∈ plain negative ws fs, c = '-' ∨ c = '.' ∨ c.isDigit = true := by
  intro c hmem
  rcases List.mem_append.mp hmem with hmem | hmem
  · split at hmem
    · exact .inl (List.mem_singleton.mp hmem)
    · cases hmem
  · rcases List.mem_append.mp hmem with hmem | hmem
    · exact .inr (.inr (hws c hmem))
    · split at hmem
      · cases hmem
      · exact .inr ((List.mem_cons.mp hmem).imp_right (hfs c))

theorem not_mark_of_mem_plain {negative : Bool} {ws fs : List Char}
    (hws : ∀ c ∈ ws, c.isDigit = true) (hfs : ∀ c ∈ fs, c.isDigit = true) :
    ∀ c ∈ plain negative ws fs, ¬ (c = 'e' ∨ c = 'E') := by
  intro c hmem
  rcases mem_plain hws hfs c hmem with rfl | rfl | hdigit
  · decide
  · decide
  · exact not_or.mpr ⟨Text.ne_of_isDigit hdigit (by decide), Text.ne_of_isDigit hdigit (by decide)⟩

theorem ofScientific?_eq {base cs : List Char} {m : Char}
    (hbase : ∀ c ∈ base, ¬ (c = 'e' ∨ c = 'E')) (hm : m = 'e' ∨ m = 'E') (hne : cs ≠ [])
    (hcs : ∀ c ∈ cs, c.isDigit = true) (negative plus : Bool) :
    ofScientific? (base ++ m :: powerText negative plus cs) =
      (ofPlain? base).bind (shifted negative (Nat.ofDigitChars 10 cs 0)) := by
  have hbase' : ∀ c ∈ base, (!decide (c = 'e' ∨ c = 'E')) = true := fun c hc => by
    simp [hbase c hc]
  have hpower : ∀ (plus : Bool) (f : Nat → Option Decimal),
      (do let k ← Text.natural? 32 (if plus then '+' :: cs else cs)
          if k ≤ maxScale then f k else none) =
        if Nat.ofDigitChars 10 cs 0 ≤ maxScale then f (Nat.ofDigitChars 10 cs 0) else none := by
    intro plus f
    rw [Text.natural?_of_isDigit hne hcs]
    by_cases hlt : Nat.ofDigitChars 10 cs 0 < twoPow 32
    · rw [if_pos hlt]
      rfl
    · have : maxScale < twoPow 32 := by decide
      rw [if_neg hlt, if_neg (by omega)]
      rfl
  unfold ofScientific?
  simp only [List.takeWhile_append_of_pos hbase', List.dropWhile_append_of_pos hbase']
  rw [List.takeWhile_cons, List.dropWhile_cons]
  simp only [hm, decide_true, Bool.not_true, Bool.false_eq_true, if_false, List.append_nil]
  cases hd : ofPlain? base with
  | none => rfl
  | some d =>
    cases negative with
    | true => exact hpower false d.shiftDown
    | false =>
      cases plus with
      | true => exact hpower true d.shiftUp
      | false =>
        obtain ⟨c, rest, rfl⟩ := List.exists_cons_of_ne_nil hne
        have hminus := Text.ne_of_isDigit (hcs c List.mem_cons_self)
          (show '-'.isDigit = false by decide)
        rw [powerText, if_neg (by decide), if_neg (by decide), Option.bind_eq_bind,
          Option.bind_some, Option.bind_some]
        split
        · rename_i heq
          cases heq
          exact absurd rfl hminus
        · exact hpower false d.shiftUp

theorem value_of_shifted {negative : Bool} {k : Nat} {d r : Decimal}
    (h : shifted negative k d = some r) :
    k ≤ maxScale ∧ r.value = nearestPlace (moved negative k d.value) := by
  obtain ⟨hk, h⟩ := Option.ite_none_right_eq_some.mp h
  refine ⟨hk, ?_⟩
  cases negative with
  | true =>
    obtain ⟨r', hr', hvalue⟩ := d.value_of_shiftDown hk
    obtain rfl : r' = r := Option.some.inj (hr'.symm.trans h)
    exact hvalue
  | false =>
    have hvalue := value_of_shiftUp h
    have hholds : Holds (d.value * 10 ^ k) := ⟨r, hvalue⟩
    exact hvalue.trans hholds.nearestPlace_eq.symm

theorem shifted_isSome {negative : Bool} {k : Nat} {d : Decimal} (hk : k ≤ maxScale)
    (h : Holds (nearestPlace (moved negative k d.value))) : ∃ r, shifted negative k d = some r := by
  rw [shifted, if_pos hk]
  cases negative with
  | true =>
    obtain ⟨r, hr, -⟩ := d.value_of_shiftDown hk
    exact ⟨r, hr⟩
  | false =>
    refine shiftUp_isSome ?_
    have hvalue : d.value * 10 ^ k =
        signOf d.negative * (d.magnitude * 10 ^ k : Nat) / 10 ^ d.scale := by
      rw [d.value_eq]
      push_cast
      ring
    rw [hvalue, ← nearestPlace_of_places _ _ d.scale_le, ← hvalue]
    exact h

/-! ## Either form -/

section

variable {negative : Bool} {ws fs : List Char} {s : String}

/-- **Positional text of a number that some decimal stands for is read as that number.** -/
theorem ofText?_plain (hs : s.toList = plain negative ws fs) (hne : ws ≠ [])
    (hws : ∀ c ∈ ws, c.isDigit = true) (hfs : ∀ c ∈ fs, c.isDigit = true)
    (hholds : Holds (plainValue negative ws fs)) :
    ∃ d, ofText? s = some d ∧ d.value = plainValue negative ws fs := by
  obtain ⟨d, hd, hvalue⟩ := ofPlain?_plain hne hws hfs hholds
  refine ⟨d, ?_, hvalue⟩
  rw [ofText?, hs, hd]
  rfl

/-- **Scientific text is read as the positional number with its point moved.** -/
theorem ofText?_scientific {m : Char} {cs : List Char} {down plus : Bool}
    (hs : s.toList = plain negative ws fs ++ m :: powerText down plus cs)
    (hws : ∀ c ∈ ws, c.isDigit = true) (hfs : ∀ c ∈ fs, c.isDigit = true)
    (hm : m = 'e' ∨ m = 'E') (hne : cs ≠ []) (hcs : ∀ c ∈ cs, c.isDigit = true) :
    ofText? s =
      (ofPlain? (plain negative ws fs)).bind (shifted down (Nat.ofDigitChars 10 cs 0)) := by
  rw [ofText?, hs, ofPlain?_of_mark hm (List.mem_append_right _ List.mem_cons_self),
    ofScientific?_eq (not_mark_of_mem_plain hws hfs) hm hne hcs]
  rfl

end

end Decimal

end SpotGateway
