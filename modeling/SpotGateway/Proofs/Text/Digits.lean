import Mathlib.Algebra.Order.Ring.Nat
import Mathlib.Tactic.Ring
import SpotGateway.Text.Digits

/-!
# Runs of digits

What digits stand for, as characters and as numbers, and the text of whole numbers.

* `Text.digit?_eq_some_iff`, `Text.takeDigits_of_isDigit`, `Text.exists_of_takeDigits` — digits as
  characters;
* `Text.ofDigitChars_eq`, `Text.ofDigitChars_lt`, `Text.valueOf_map` — what they stand for;
* `Text.natural?_of_isDigit` — numbers read from text;
* `Text.filled_spec`, `Text.padded_spec` — numbers filled up with zeros;
* `Text.isHexadecimal`, `Text.paddedHexadecimal_spec` — hexadecimal text;
* `Text.run_append_inj`, `Text.signed_append_inj`, `Text.signed_injective` — integers told apart from
  each other, and from what follows them.
-/

set_option autoImplicit false

namespace SpotGateway.Text

/-- The value of a digit. -/
def digitOf (c : Char) : Nat := c.toNat - '0'.toNat

theorem digit?_eq_some_iff {c : Char} {d : Nat} :
    digit? c = some d ↔ c.isDigit = true ∧ digitOf c = d := by
  rw [digit?, Char.isDigit, Option.ite_none_right_eq_some, Bool.and_eq_true, decide_eq_true_eq,
    decide_eq_true_eq, Option.some_inj]
  exact Iff.rfl

theorem digit?_of_isDigit {c : Char} (h : c.isDigit = true) : digit? c = some (digitOf c) :=
  digit?_eq_some_iff.mpr ⟨h, rfl⟩

theorem ne_of_isDigit {c d : Char} (h : c.isDigit = true) (hd : d.isDigit = false) : c ≠ d := by
  rintro rfl
  rw [h] at hd
  cases hd

theorem isDigit_of_mem_zero : ∀ c ∈ ['0'], c.isDigit = true := by
  intro c hc
  rw [List.mem_singleton.mp hc]
  rfl

theorem digitOf_lt {c : Char} (h : c.isDigit = true) : digitOf c < 10 := by
  rw [Char.isDigit, Bool.and_eq_true, decide_eq_true_eq, decide_eq_true_eq] at h
  have : c.toNat ≤ 57 := h.2
  have : '0'.toNat = 48 := rfl
  unfold digitOf
  omega

/-! ## What digits stand for -/

theorem ofDigitChars_cons (c : Char) (cs : List Char) (n : Nat) :
    Nat.ofDigitChars 10 (c :: cs) n = Nat.ofDigitChars 10 cs (n * 10 + digitOf c) := by
  rw [Nat.ofDigitChars_cons, Nat.mul_comm]
  rfl

/-- Digits after a number move it up by as many places. -/
theorem ofDigitChars_eq (cs : List Char) (n : Nat) :
    Nat.ofDigitChars 10 cs n = n * 10 ^ cs.length + Nat.ofDigitChars 10 cs 0 := by
  induction cs generalizing n with
  | nil => simp
  | cons c rest ih =>
    rw [ofDigitChars_cons, ofDigitChars_cons, ih, ih (0 * 10 + _), List.length_cons, pow_succ]
    ring

theorem ofDigitChars_lt {cs : List Char} (h : ∀ c ∈ cs, c.isDigit = true) :
    Nat.ofDigitChars 10 cs 0 < 10 ^ cs.length := by
  induction cs with
  | nil => simp
  | cons c rest ih =>
    have hrest := ih fun c hc => h c (List.mem_cons_of_mem _ hc)
    have hc := Nat.le_of_lt_succ (digitOf_lt (h c List.mem_cons_self))
    rw [ofDigitChars_cons, ofDigitChars_eq, List.length_cons, pow_succ, Nat.zero_mul, Nat.zero_add]
    have := Nat.mul_le_mul_right (10 ^ rest.length) hc
    omega

theorem valueOf_map (cs : List Char) : valueOf (cs.map digitOf) = Nat.ofDigitChars 10 cs 0 := by
  rw [valueOf, Nat.ofDigitChars, List.foldl_map]
  simp only [Nat.mul_comm 10]
  rfl

theorem ofDigitChars_replicate (k : Nat) : Nat.ofDigitChars 10 (List.replicate k '0') 0 = 0 := by
  induction k with
  | zero => rfl
  | succ k ih =>
    rw [List.replicate_succ, ofDigitChars_cons]
    exact ih

/-! ## Runs in text -/

theorem takeDigits_of_isDigit {cs : List Char} (h : ∀ c ∈ cs, c.isDigit = true) :
    takeDigits cs = (cs.map digitOf, []) := by
  induction cs with
  | nil => rfl
  | cons c rest ih =>
    rw [takeDigits, digit?_of_isDigit (h c List.mem_cons_self),
      ih fun c hc => h c (List.mem_cons_of_mem _ hc)]
    rfl

theorem exists_of_takeDigits {cs rest : List Char} {ds : List Nat}
    (h : takeDigits cs = (ds, rest)) :
    ∃ run, cs = run ++ rest ∧ (∀ c ∈ run, c.isDigit = true) ∧ ds = run.map digitOf := by
  induction cs generalizing ds with
  | nil =>
    cases h
    exact ⟨[], rfl, by simp, rfl⟩
  | cons c cs ih =>
    unfold takeDigits at h
    split at h
    · rename_i d hd
      obtain ⟨hc, rfl⟩ := digit?_eq_some_iff.mp hd
      cases h
      obtain ⟨run, hrun, hdigits, hvalues⟩ := ih rfl
      refine ⟨c :: run, by rw [List.cons_append, ← hrun], ?_, by rw [hvalues]; rfl⟩
      exact List.forall_mem_cons.mpr ⟨hc, hdigits⟩
    · cases h
      exact ⟨[], rfl, by simp, rfl⟩

/-- A number read from digits, with or without a plus sign before them. -/
theorem natural?_of_isDigit {bits : Nat} {cs : List Char} (hne : cs ≠ [])
    (h : ∀ c ∈ cs, c.isDigit = true) (plus : Bool) :
    natural? bits (if plus then '+' :: cs else cs) =
      if Nat.ofDigitChars 10 cs 0 < twoPow bits then some (Nat.ofDigitChars 10 cs 0) else none := by
  obtain ⟨c, rest, rfl⟩ := List.exists_cons_of_ne_nil hne
  have hplus := ne_of_isDigit (h c List.mem_cons_self) (show '+'.isDigit = false by decide)
  rw [← valueOf_map]
  cases plus with
  | true =>
    rw [if_pos rfl, natural?, takeDigits_of_isDigit h]
    rfl
  | false =>
    rw [if_neg (by decide), natural?, takeDigits_of_isDigit h]
    · rfl
    · rintro rest' heq
      cases heq
      exact hplus rfl

/-! ## Text of whole numbers -/

theorem isDigit_of_mem_toDigits {n : Nat} : ∀ c ∈ Nat.toDigits 10 n, c.isDigit = true :=
  fun _ => Nat.isDigit_of_mem_toDigits (by decide) (by decide)

/-- Only zero is written with a zero in front. -/
theorem eq_zero_of_head_toDigits {n : Nat} (h : (Nat.toDigits 10 n).head? = some '0') : n = 0 := by
  induction n using Nat.strongRecOn with
  | ind n ih =>
    rcases Nat.lt_or_ge n 10 with hn | hn
    · have hall : ∀ n < 10, some n.digitChar = some '0' → n = 0 := by decide
      rw [Nat.toDigits_of_lt_base hn] at h
      exact hall n hn h
    · rw [Nat.toDigits_of_base_le (by decide) hn, List.head?_append,
        List.head?_eq_some_head Nat.toDigits_ne_nil, Option.some_or,
        ← List.head?_eq_some_head Nat.toDigits_ne_nil] at h
      have := ih (n / 10) (by omega) h
      omega

theorem ofDigitChars_toDigits (n : Nat) : Nat.ofDigitChars 10 (Nat.toDigits 10 n) 0 = n :=
  Nat.ofDigitChars_toDigits (by decide) (by decide)

/-- Digits that are filled up with zeros are as many as asked for, and all of one kind. -/
theorem filled_spec {base width n : Nat} {p : Char → Bool} (hbase : 1 < base) (hwidth : 0 < width)
    (hn : n < base ^ width) (hzero : p '0' = true)
    (hdigits : ∀ c ∈ Nat.toDigits base n, p c = true) :
    ∃ cs, cs = List.replicate (width - (Nat.toDigits base n).length) '0' ++ Nat.toDigits base n ∧
      (∀ c ∈ cs, p c = true) ∧ cs.length = width := by
  have hlength := (Nat.length_toDigits_le_iff hbase hwidth).mpr hn
  refine ⟨_, rfl, ?_, ?_⟩
  · intro c hc
    rcases List.mem_append.mp hc with hc | hc
    · rw [List.eq_of_mem_replicate hc]
      exact hzero
    · exact hdigits c hc
  · rw [List.length_append, List.length_replicate]
    omega

/-- Text filled up with zeros has the width asked for and stands for the same number. -/
theorem padded_spec {width n : Nat} (hwidth : 0 < width) (hn : n < 10 ^ width) :
    ∃ cs, padded width n = String.ofList cs ∧ (∀ c ∈ cs, c.isDigit = true) ∧
      cs.length = width ∧ Nat.ofDigitChars 10 cs 0 = n := by
  obtain ⟨cs, hcs, hdigits, hlength⟩ :=
    filled_spec (by decide) hwidth hn (p := Char.isDigit) rfl isDigit_of_mem_toDigits
  refine ⟨cs, by rw [hcs]; rfl, hdigits, hlength, ?_⟩
  rw [hcs, Nat.ofDigitChars_append, ofDigitChars_replicate, ofDigitChars_toDigits]

/-! ## Hexadecimal text -/

/-- A hexadecimal digit as it is written, with lower-case letters. -/
def isHexadecimal (c : Char) : Bool := c.isDigit || ('a' ≤ c && c ≤ 'f')

theorem isHexadecimal_digitChar {d : Nat} (h : d < 16) : isHexadecimal d.digitChar = true := by
  revert d
  decide

theorem isHexadecimal_of_mem_toDigits {n : Nat} :
    ∀ c ∈ Nat.toDigits 16 n, isHexadecimal c = true := by
  induction n using Nat.strongRecOn with
  | ind n ih =>
    intro c hc
    by_cases hn : n < 16
    · rw [Nat.toDigits_of_lt_base hn, List.mem_singleton] at hc
      rw [hc]
      exact isHexadecimal_digitChar hn
    · rw [Nat.toDigits_of_base_le (by decide) (Nat.le_of_not_lt hn)] at hc
      rcases List.mem_append.mp hc with hc | hc
      · exact ih (n / 16) (Nat.div_lt_self (by omega) (by decide)) c hc
      · rw [List.mem_singleton.mp hc]
        exact isHexadecimal_digitChar (Nat.mod_lt n (by decide))

theorem paddedHexadecimal_spec {width n : Nat} (hwidth : 0 < width) (hn : n < 16 ^ width) :
    ∃ cs, paddedHexadecimal width n = String.ofList cs ∧ (∀ c ∈ cs, isHexadecimal c = true) ∧
      cs.length = width := by
  obtain ⟨cs, hcs, hdigits, hlength⟩ :=
    filled_spec (by decide) hwidth hn (p := isHexadecimal) (by decide) isHexadecimal_of_mem_toDigits
  exact ⟨cs, by rw [hcs]; rfl, hdigits, hlength⟩

/-! ## Text that goes on -/

/-- A run of characters ends where another kind of character begins. -/
theorem run_append_inj {p : Char → Bool} {as bs xs ys : List Char} (ha : ∀ c ∈ as, p c = true)
    (hb : ∀ c ∈ bs, p c = true) (hx : ∀ c ∈ xs.head?, p c = false)
    (hy : ∀ c ∈ ys.head?, p c = false) (h : as ++ xs = bs ++ ys) : as = bs ∧ xs = ys := by
  have hrun : ∀ {cs rest : List Char}, (∀ c ∈ cs, p c = true) →
      (∀ c ∈ rest.head?, p c = false) → (cs ++ rest).takeWhile p = cs := by
    intro cs rest hcs hrest
    rw [List.takeWhile_append_of_pos hcs]
    cases rest with
    | nil => simp
    | cons c rest => simp [hrest c rfl]
  have hsame : as = bs := by
    rw [← hrun ha hx, h, hrun hb hy]
  subst hsame
  exact ⟨rfl, List.append_cancel_left h⟩

theorem toList_signed_of_nonneg {i : Int} (h : 0 ≤ i) :
    (signed i).toList = Nat.toDigits 10 i.natAbs := by
  rw [signed, if_neg (Int.not_lt.mpr h), decimal, String.toList_ofList]

theorem toList_signed_of_neg {i : Int} (h : i < 0) :
    (signed i).toList = '-' :: Nat.toDigits 10 i.natAbs := by
  simp [signed, h, decimal]

theorem toDigits_injective : Function.Injective (Nat.toDigits 10) := by
  intro m n h
  rw [← ofDigitChars_toDigits m, h, ofDigitChars_toDigits]

/-- An integer with a sign does not start like one without. -/
theorem dash_ne_toDigits {n : Nat} {cs xs : List Char} : '-' :: cs ≠ Nat.toDigits 10 n ++ xs := by
  obtain ⟨d, ds, hds⟩ := List.exists_cons_of_ne_nil (Nat.toDigits_ne_nil (n := n) (b := 10))
  have hd : d.isDigit = true := isDigit_of_mem_toDigits d (hds ▸ List.mem_cons_self)
  rw [hds, List.cons_append, Ne, List.cons.injEq]
  rintro ⟨rfl, _⟩
  cases hd

/-- An integer can be told apart from what follows it, unless a digit follows. -/
theorem signed_append_inj {i j : Int} {xs ys : List Char}
    (hx : ∀ c ∈ xs.head?, c.isDigit = false) (hy : ∀ c ∈ ys.head?, c.isDigit = false)
    (h : (signed i).toList ++ xs = (signed j).toList ++ ys) : i = j ∧ xs = ys := by
  have hdigits : Nat.toDigits 10 i.natAbs ++ xs = Nat.toDigits 10 j.natAbs ++ ys →
      i.natAbs = j.natAbs ∧ xs = ys := fun h =>
    (run_append_inj isDigit_of_mem_toDigits isDigit_of_mem_toDigits hx hy h).imp
      (fun h => toDigits_injective h) id
  by_cases hi : 0 ≤ i
  · by_cases hj : 0 ≤ j
    · rw [toList_signed_of_nonneg hi, toList_signed_of_nonneg hj] at h
      obtain ⟨habs, hrest⟩ := hdigits h
      exact ⟨by omega, hrest⟩
    · rw [toList_signed_of_nonneg hi, toList_signed_of_neg (by omega)] at h
      exact absurd h.symm dash_ne_toDigits
  · by_cases hj : 0 ≤ j
    · rw [toList_signed_of_neg (by omega), toList_signed_of_nonneg hj] at h
      exact absurd h dash_ne_toDigits
    · rw [toList_signed_of_neg (by omega), toList_signed_of_neg (by omega), List.cons_append,
        List.cons_append, List.cons.injEq] at h
      obtain ⟨habs, hrest⟩ := hdigits h.2
      exact ⟨by omega, hrest⟩

theorem signed_injective : Function.Injective signed := by
  intro i j h
  have happend : (signed i).toList ++ [] = (signed j).toList ++ [] := by rw [h]
  exact (signed_append_inj (by simp) (by simp) happend).1

end SpotGateway.Text
