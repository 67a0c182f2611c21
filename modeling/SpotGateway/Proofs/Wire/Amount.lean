import SpotGateway.Proofs.Json.Number
import SpotGateway.Wire.Amount

/-!
# Amounts as written

Which amounts the gateway takes from a document without changing them.  Text is read digit by digit.
Numbers are values first, and what is not a whole number of 64 bits becomes a floating-point number,
of which the shortest digits are read.

* `Literal.Kept` — the number of a literal outlives that;
* `Amount.ofText?_orElse_ofScientific?` — the second chance for scientific form;
* `Amount.Yields` — what both decoders of amounts give;
* `Amount.yields_number_iff`, `Amount.value_of_string_iff` — numbers and text;
* `Amount.exact_iff_kept` — a number is read exactly if and only if it is kept.
-/

set_option autoImplicit false

namespace SpotGateway

open Json
open Decimal (Holds plain plainValue powerText moved shifted)

namespace Json.Literal

/-- The number of the literal can be told from its value: the value is a whole number, or a
floating-point number whose shortest digits, to 28 places, are those of the literal. -/
def Kept (l : Literal) : Prop :=
  match l.number? with
  | some (.float x) => Binary64.InReach x.written ∧ nearestPlace x.written = l.value
  | some _ => True
  | none => False

end Json.Literal

namespace Amount

/-- Required and optional amounts are read as the decimal. -/
def Yields (room : Nat) (n : Node) (d : Decimal) : Prop :=
  required room n = .ok d ∧ optional room n = .ok (some d)

theorem yields_iff {room : Nat} {n : Node} {d : Decimal} :
    Yields room n d ↔ optional room n = .ok (some d) := by
  refine ⟨fun h => h.2, fun h => ⟨?_, h⟩⟩
  rw [required, h]
  rfl

/-- The second chance for scientific form comes to nothing: it has been tried already. -/
theorem ofText?_orElse_ofScientific? (s : String) :
    (Decimal.ofText? s <|> Decimal.ofScientific? s.toList) = Decimal.ofText? s := by
  rw [Decimal.ofText?]
  cases Decimal.ofPlain? s.toList with
  | some d => rfl
  | none => cases Decimal.ofScientific? s.toList <;> simp

theorem ofText_eq_ok_iff {s : String} {d : Decimal} :
    ofText s = .ok (some d) ↔ Decimal.ofText? s = some d := by
  rw [ofText, ofText?_orElse_ofScientific?]
  split
  · rename_i d' hd
    rw [hd, Except.ok.injEq]
  · rename_i hd
    rw [hd]
    constructor <;> intro h <;> cases h

/-! ## Numbers -/

theorem yields_number_iff {room : Nat} {l : Literal} {d : Decimal} :
    Yields room (.number l) d ↔ ∃ n, l.number? = some n ∧ Decimal.ofText? n.text = some d := by
  rw [yields_iff, optional, Decoder.value, Node.value?]
  cases hn : l.number? with
  | none =>
    constructor
    · intro h
      cases h
    · rintro ⟨n, h, -⟩
      cases h
  | some n =>
    show ofText n.text = .ok (some d) ↔ _
    rw [ofText_eq_ok_iff]
    constructor
    · exact fun h => ⟨n, rfl, h⟩
    · rintro ⟨n', h, hd⟩
      cases h
      exact hd

/-- Whole numbers of 64 bits are read as they are. -/
theorem ofText?_of_word {n : Nat} (hn : n < word64) (negative : Bool) {s : String}
    (hs : s.toList = plain negative (Nat.toDigits 10 n) []) :
    ∃ d, Decimal.ofText? s = some d ∧ d.value = signOf negative * n := by
  have hvalue : plainValue negative (Nat.toDigits 10 n) [] = signOf negative * n := by
    rw [plainValue, List.append_nil, Text.ofDigitChars_toDigits, List.length_nil, pow_zero, div_one]
  have hlimit : word64 ≤ coefficientLimit := by decide
  have hholds : Holds (plainValue negative (Nat.toDigits 10 n) []) := by
    have := Decimal.holds_of_digits negative (Nat.lt_of_lt_of_le hn hlimit) (Nat.zero_le maxScale)
    rwa [pow_zero, div_one, ← hvalue] at this
  rw [← hvalue]
  exact Decimal.ofText?_plain hs Nat.toDigits_ne_nil Text.isDigit_of_mem_toDigits (by simp) hholds

theorem natural_text (k : Nat) :
    (Number.natural k).text.toList = plain false (Nat.toDigits 10 k) [] := by
  simp [Number.text, Text.decimal, plain]

theorem negative_text {k : Nat} (hk : 0 < k) :
    (Number.negative (-(k : Int))).text.toList = plain true (Nat.toDigits 10 k) [] := by
  simp [Number.text, Text.signed, hk, Text.decimal, plain]

/-- **A number is read exactly if and only if it is kept.** -/
theorem yields_value_iff {l : Literal} (hl : Holds l.value) (room : Nat) :
    (∃ d, Yields room (.number l) d ∧ d.value = l.value) ↔ l.Kept := by
  simp only [yields_number_iff]
  unfold Literal.Kept
  cases hn : l.number? with
  | none => simp
  | some n =>
    rcases Literal.number?_cases hn with ⟨k, hk, rfl, hvalue⟩ | ⟨k, hk, hpos, rfl, hvalue⟩ |
      ⟨x, rfl, hx⟩
    · obtain ⟨d, hd, hdvalue⟩ := ofText?_of_word hk false (natural_text k)
      refine iff_of_true ⟨d, ⟨_, rfl, hd⟩, ?_⟩ trivial
      rw [hdvalue, hvalue]
      simp [signOf]
    · obtain ⟨d, hd, hdvalue⟩ := ofText?_of_word hk true (negative_text hpos)
      refine iff_of_true ⟨d, ⟨_, rfl, hd⟩, ?_⟩ trivial
      rw [hdvalue, hvalue]
      simp [signOf]
    · have hfinite := Literal.finite_of_float? hx
      constructor
      · rintro ⟨d, ⟨n, hn, hd⟩, hvalue⟩
        cases hn
        obtain ⟨hreach, hdvalue⟩ := Binary64.value_of_ofText? hfinite hd
        exact ⟨hreach, hdvalue.symm.trans hvalue⟩
      · rintro ⟨hreach, hwritten⟩
        obtain ⟨d, hd⟩ := Binary64.ofText?_isSome hfinite hreach (hwritten.symm ▸ hl)
        obtain ⟨-, hdvalue⟩ := Binary64.value_of_ofText? hfinite hd
        exact ⟨d, ⟨_, rfl, hd⟩, hdvalue.trans hwritten⟩

/-! ## Text -/

section

variable {l : Literal} {ws fs ps : List Char}

theorem yields_string_iff (h : Written l ws fs ps) {room : Nat} {d : Decimal} :
    Yields room (.string (some (String.ofList (plain l.negative ws fs ++ ps)))) d ↔
      Decimal.ofText? (String.ofList (plain l.negative ws fs ++ ps)) = some d := by
  have hne : plain l.negative ws fs ++ ps ≠ [] := by
    simp [plain, h.whole_ne]
  have htrim := Text.trim_eq h.not_blank
  rw [yields_iff, ← ofText_eq_ok_iff]
  obtain ⟨c, cs, hcs⟩ := List.exists_cons_of_ne_nil hne
  rw [hcs] at htrim ⊢
  show ofValue (.string (String.ofList (c :: cs))) = _ ↔ _
  simp only [ofValue, String.toList_ofList, htrim]

/-- **Text is read exactly if and only if some decimal stands for the digits before the
exponent.** -/
theorem value_of_string_iff (h : Written l ws fs ps) (hl : Holds l.value) {d : Decimal}
    (hd : Decimal.ofText? (String.ofList (plain l.negative ws fs ++ ps)) = some d) :
    d.value = l.value ↔ Holds l.base := by
  rcases h.power_cases with
    ⟨rfl, hvalue⟩ | ⟨mark, down, plus, es, hmark, hne, hes, rfl, hvalue⟩
  · have hbase : Holds l.base := hvalue ▸ hl
    rw [List.append_nil] at hd
    obtain ⟨d', hd', hdvalue⟩ := Decimal.ofText?_plain String.toList_ofList h.whole_ne
      h.whole_digits h.fraction_digits (h.base_eq ▸ hbase)
    obtain rfl : d' = d := Option.some.inj (hd'.symm.trans hd)
    exact iff_of_true (by rw [hdvalue, hvalue, h.base_eq]) hbase
  · rw [Decimal.ofText?_scientific String.toList_ofList h.whole_digits h.fraction_digits hmark hne
      hes] at hd
    obtain ⟨d', hd', hshift⟩ := Option.bind_eq_some_iff.mp hd
    constructor
    · intro heq
      cases down with
      | true =>
        -- what is too large before the point moves is not read at all
        refine Decimal.holds_of_div (hvalue ▸ hl) ?_
        by_contra hlarge
        rw [h.base_eq, not_lt] at hlarge
        rw [Decimal.ofPlain?_of_large h.whole_ne h.whole_digits h.fraction_digits hlarge] at hd'
        cases hd'
      | false =>
        obtain ⟨-, hshift⟩ := Option.ite_none_right_eq_some.mp hshift
        have hdvalue := Decimal.value_of_shiftUp hshift
        rw [heq, hvalue] at hdvalue
        exact ⟨d', (mul_right_cancel₀ (by positivity) hdvalue).symm⟩
    · intro hbase
      obtain ⟨d'', hd'', hdvalue⟩ := Decimal.ofPlain?_plain h.whole_ne h.whole_digits
        h.fraction_digits (h.base_eq ▸ hbase)
      obtain rfl : d'' = d' := Option.some.inj (hd''.symm.trans hd')
      rw [(Decimal.value_of_shifted hshift).2, hdvalue, ← h.base_eq, ← hvalue, hl.nearestPlace_eq]

end

/-! ## Amounts -/

theorem inReach_of_holds {q : ℚ} (h : Holds q) : Binary64.InReach q := by
  obtain ⟨m, s, -, hs, hvalue⟩ := h.abs_eq
  rcases Nat.eq_zero_or_pos m with rfl | hm
  · left
    rw [← abs_eq_zero, hvalue]
    simp
  · right
    have hpow : (10 : ℚ) ^ s ≤ 10 ^ maxScale := pow_le_pow_right₀ (by norm_num) hs
    rw [hvalue, div_mul_eq_mul_div, one_le_div (by positivity)]
    exact hpow.trans (le_mul_of_one_le_left (by positivity) (by exact_mod_cast hm))

theorem kept_of_isWord {l : Literal} (h : l.IsWord) : l.Kept := by
  obtain ⟨n, hn, hfloat⟩ := Literal.number?_of_isWord h
  unfold Literal.Kept
  rw [hn]
  cases n with
  | natural k => trivial
  | negative i => trivial
  | float x => exact absurd rfl (hfloat x)

theorem kept_of_short {l : Literal} (hl : Holds l.value) (h : l.Short) : l.Kept := by
  obtain ⟨x, hx, hwritten⟩ := Literal.written_of_short h
  obtain ⟨n, hn⟩ := Literal.number?_isSome hx
  unfold Literal.Kept
  rw [hn]
  rcases Literal.number?_cases hn with ⟨k, -, rfl, -⟩ | ⟨k, -, -, rfl, -⟩ | ⟨y, rfl, hy⟩
  · trivial
  · trivial
  · obtain rfl : x = y := Option.some.inj (hx.symm.trans hy)
    show Binary64.InReach x.written ∧ nearestPlace x.written = l.value
    rw [hwritten]
    exact ⟨inReach_of_holds hl, hl.nearestPlace_eq⟩

/-- **Numbers keep their value as far as their floating-point value shows it.**  A number is read
exactly if and only if it is kept.  Its text is read exactly, if it is read at all, if and only if
some decimal stands for the digits before the exponent, and then the two agree for a number that is
kept.  Kept are whole numbers of 64 bits and all numbers of at most 15 digits with a power of ten of
at most 22. -/
theorem exact_iff_kept {cs : List Char} {l : Literal} (hl : Document.number? cs = some (l, []))
    (hvalue : Holds l.value) (room : Nat) :
    ((∃ d, Yields room (.number l) d ∧ d.value = l.value) ↔ l.Kept) ∧
      (∀ d, Yields room (.string (some (String.ofList cs))) d →
        (d.value = l.value ↔ Holds l.base)) ∧
      (l.Kept → Holds l.base → ∀ d d', Yields room (.number l) d →
        Yields room (.string (some (String.ofList cs))) d' → d.same d' = true) ∧
      (l.IsWord ∨ l.Short → l.Kept) := by
  obtain ⟨ws, fs, ps, rfl, hwritten⟩ := Document.written_of_number? hl
  have hnumber := yields_value_iff hvalue room
  have hstring : ∀ d,
      Yields room (.string (some (String.ofList (plain l.negative ws fs ++ ps)))) d →
        (d.value = l.value ↔ Holds l.base) := fun d hd =>
    value_of_string_iff hwritten hvalue ((yields_string_iff hwritten).mp hd)
  refine ⟨hnumber, hstring, fun hkept hbase d d' hd hd' => ?_,
    fun h => h.elim kept_of_isWord (kept_of_short hvalue)⟩
  obtain ⟨e, he, hevalue⟩ := hnumber.mpr hkept
  obtain rfl : e = d := Except.ok.inj (he.1.symm.trans hd.1)
  rw [Decimal.same_iff, hevalue, (hstring d' hd').mpr hbase]

/-- Two hundredths are read exactly. -/
theorem exact_two_hundredths :
    ∃ l, Document.number? "0.02".toList = some (l, []) ∧ Holds l.value ∧
      ∃ d, Yields fullRoom (.number l) d ∧ d.value = l.value := by
  have hl : Document.number? "0.02".toList = some (⟨false, [0], some [0, 2], none⟩, []) := by
    decide +kernel
  have hvalue : Holds (⟨false, [0], some [0, 2], none⟩ : Literal).value :=
    ⟨⟨false, 2, 2, by decide, by decide⟩, by
      simp [Decimal.value, Decimal.coefficient, Literal.value, Literal.base, Literal.digits,
        Literal.places, Literal.power, Text.valueOf, signOf]⟩
  obtain ⟨hexact, -, -, hkept⟩ := exact_iff_kept hl hvalue fullRoom
  exact ⟨_, hl, hvalue, hexact.mpr (hkept (.inr ⟨by decide, by decide⟩))⟩

/-- A fraction of 19 digits. -/
def longFraction : Literal :=
  ⟨false, [0], some [1, 2, 3, 4, 5, 6, 7, 8, 9, 0, 1, 2, 3, 4, 5, 6, 7, 8, 9], none⟩

/-- The long fraction stands for a decimal, and its number is read as another. -/
theorem rounds_long_fraction :
    Document.number? "0.1234567890123456789".toList = some (longFraction, []) ∧
      ∃ d d' : Decimal, d.value = longFraction.value ∧
        Yields fullRoom (.number longFraction) d' ∧ d'.same d = false := by
  refine ⟨by decide +kernel, ⟨false, 1234567890123456789, 19, by decide, by decide⟩,
    ⟨false, 12345678901234568, 17, by decide, by decide⟩, ?_, ?_, by decide +kernel⟩
  · simp [Decimal.value, Decimal.coefficient, longFraction, Literal.value, Literal.base,
      Literal.digits, Literal.places, Literal.power, Text.valueOf, signOf]
  · exact yields_iff.mpr (by decide +kernel)

end Amount

end SpotGateway
