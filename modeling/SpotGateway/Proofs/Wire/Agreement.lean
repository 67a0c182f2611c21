import SpotGateway.Proofs.Outcome
import SpotGateway.Proofs.Wire.Amount
import SpotGateway.Wire.Stream

/-!
# Amounts in replies and in the stream

Replies and frames of the stream carry amounts in the same forms, and each has a decoder of its own.
The one for replies cuts blanks off the ends of text and the one for the stream does not; in all else
they take the same values and give the same decimals, numbers that are written with a power of ten
among them.

* `Decimal.not_blank_of_ofText?` — text that stands for a decimal has no blanks;
* `Json.Number.shown`, `Json.Number.ofText?_text_iff` — numbers that stand for a decimal, and for which;
* `Amount.Padded`, `Amount.ofFrame` — text with blanks at its ends, and what the stream decodes;
* `Amount.value_agrees`, `Amount.agrees_unless_padded` — the two decoders agree.
-/

set_option autoImplicit false

namespace SpotGateway

open Json

/-! ## Text that is taken -/

namespace Decimal

theorem IsPositional.not_blank {c : Char} (h : IsPositional c) : Text.isBlank c = false := by
  rcases h with h | h
  · exact Text.not_blank_of_isDigit h
  · simp only [List.mem_cons, List.not_mem_nil, or_false] at h
    rcases h with rfl | rfl | rfl | rfl <;> rfl

/-- A power of ten has a sign and digits. -/
theorem isPositional_of_natural? {bits k : Nat} {cs : List Char}
    (h : Text.natural? bits cs = some k) : ∀ c ∈ cs, IsPositional c := by
  unfold Text.natural? at h
  simp only at h
  split at h
  · cases h
  · rename_i ds _ htake
    obtain ⟨run, hrun, hdigits, -⟩ := Text.exists_of_takeDigits htake
    rw [List.append_nil] at hrun
    split at hrun
    · subst hrun
      exact List.forall_mem_cons.mpr ⟨by decide, fun c hc => .inl (hdigits c hc)⟩
    · subst hrun
      exact fun c hc => .inl (hdigits c hc)
  · cases h

/-- Before and behind the mark of the exponent there are only characters of positional text. -/
theorem not_blank_of_ofScientific? {cs : List Char} {d : Decimal} (h : ofScientific? cs = some d) :
    ∀ c ∈ cs, Text.isBlank c = false := by
  unfold ofScientific? at h
  simp only at h
  split at h
  · cases h
  · rename_i mark power hdrop
    obtain ⟨base, hbase, h⟩ := Option.bind_eq_some_iff.mp h
    have hmark : Text.isBlank mark = false := by
      have hhead := List.head?_dropWhile_not (fun c => !decide (c = 'e' ∨ c = 'E')) cs
      rw [hdrop] at hhead
      simp only [Bool.not_eq_false', decide_eq_true_eq] at hhead
      rcases hhead with rfl | rfl
      · decide
      · decide
    have hpower : ∀ c ∈ power, Text.isBlank c = false := by
      split at h
      · obtain ⟨k, hk, -⟩ := Option.bind_eq_some_iff.mp h
        exact List.forall_mem_cons.mpr
          ⟨by decide, fun c hc => (isPositional_of_natural? hk c hc).not_blank⟩
      · obtain ⟨k, hk, -⟩ := Option.bind_eq_some_iff.mp h
        exact fun c hc => (isPositional_of_natural? hk c hc).not_blank
    intro c hc
    rw [← List.takeWhile_append_dropWhile (p := fun c => !decide (c = 'e' ∨ c = 'E')) (l := cs), hdrop,
      List.mem_append, List.mem_cons] at hc
    rcases hc with hc | rfl | hc
    · exact (isPositional_of_ofPlain? hbase c hc).not_blank
    · exact hmark
    · exact hpower c hc

/-- Text that stands for a decimal has no blanks, neither at its ends nor within. -/
theorem not_blank_of_ofText? {s : String} {d : Decimal} (h : ofText? s = some d) :
    ∀ c ∈ s.toList, Text.isBlank c = false := by
  unfold ofText? at h
  cases hplain : ofPlain? s.toList with
  | some d' => exact fun c hc => (isPositional_of_ofPlain? hplain c hc).not_blank
  | none =>
    rw [hplain] at h
    exact not_blank_of_ofScientific? h

end Decimal

/-! ## Numbers -/

namespace Json.Number

open Decimal (Holds)

/-- The number that is shown: a whole number itself, or the shortest digits of a double. -/
def shown : Number → ℚ
  | .natural n => n
  | .negative i => i
  | .float x => x.written

/-- **A number stands for the decimal that is nearest to what it shows,** to 28 places, in positional
and in scientific notation alike.  It stands for none if it is below all decimals other than zero, or if
there is no such decimal. -/
theorem ofText?_text_iff {l : Literal} {n : Number} (hn : l.number? = some n) :
    ((∃ d, Decimal.ofText? n.text = some d) ↔
      Binary64.InReach n.shown ∧ Holds (nearestPlace n.shown)) ∧
    ∀ d, Decimal.ofText? n.text = some d → d.value = nearestPlace n.shown := by
  -- whole numbers of 64 bits are decimals themselves
  have hword : ∀ d₀, Decimal.ofText? n.text = some d₀ → d₀.value = n.shown →
      ((∃ d, Decimal.ofText? n.text = some d) ↔
        Binary64.InReach n.shown ∧ Holds (nearestPlace n.shown)) ∧
      ∀ d, Decimal.ofText? n.text = some d → d.value = nearestPlace n.shown := by
    intro d₀ hd₀ hvalue
    have hholds : Holds n.shown := ⟨d₀, hvalue⟩
    rw [hholds.nearestPlace_eq]
    refine ⟨iff_of_true ⟨d₀, hd₀⟩ ⟨Amount.inReach_of_holds hholds, hholds⟩, ?_⟩
    intro d hd
    obtain rfl : d₀ = d := Option.some.inj (hd₀.symm.trans hd)
    exact hvalue
  rcases Literal.number?_cases hn with ⟨k, hk, rfl, -⟩ | ⟨k, hk, hpos, rfl, -⟩ | ⟨x, rfl, hx⟩
  · obtain ⟨d₀, hd₀, hvalue⟩ := Amount.ofText?_of_word hk false (Amount.natural_text k)
    exact hword d₀ hd₀ (by rw [hvalue]; simp [signOf, shown])
  · obtain ⟨d₀, hd₀, hvalue⟩ := Amount.ofText?_of_word hk true (Amount.negative_text hpos)
    exact hword d₀ hd₀ (by rw [hvalue]; simp [signOf, shown])
  · have hfinite := Literal.finite_of_float? hx
    refine ⟨⟨?_, fun h => Binary64.ofText?_isSome hfinite h.1 h.2⟩,
      fun d hd => (Binary64.value_of_ofText? hfinite hd).2⟩
    rintro ⟨d, hd⟩
    obtain ⟨hreach, hvalue⟩ := Binary64.value_of_ofText? hfinite hd
    exact ⟨hreach, d, hvalue⟩

end Json.Number

/-! ## The two decoders -/

namespace Amount

open Decimal (Holds)

/-- The text has blanks at its ends. -/
def Padded : Node → Prop
  | .string (some s) => Text.trim s.toList ≠ s.toList
  | _ => False

/-- The amount of a part of a frame, as the stream decodes it. -/
def ofFrame (room : Nat) (n : Node) : Option Decimal := (n.value? room).bind Stream.amount?

variable {room : Nat} {n : Node} {d : Decimal} {s : String}

theorem value_eq_ok_iff {v : Value} : Decoder.value room n = .ok v ↔ n.value? room = some v := by
  unfold Decoder.value Decoder.ofOption
  cases n.value? room <;> simp

theorem required_eq_ok_iff : required room n = .ok d ↔
    ∃ v, n.value? room = some v ∧ ofValue v = .ok (some d) := by
  have hrequired : required room n = .ok d ↔ optional room n = .ok (some d) := by
    rw [required, bind_eq_ok]
    constructor
    · rintro ⟨_ | d', hoptional, hd⟩
      · cases hd
      · cases hd
        exact hoptional
    · intro hoptional
      exact ⟨some d, hoptional, rfl⟩
  rw [hrequired, optional, bind_eq_ok]
  simp only [value_eq_ok_iff]

theorem ofValue_string (s : String) : ofValue (.string s) =
    if Text.trim s.toList = [] then .ok none else ofText (String.ofList (Text.trim s.toList)) := by
  simp only [ofValue]
  split
  · rename_i h
    rw [if_pos h]
  · rename_i h
    rw [if_neg h]

/-- Text is taken from a frame exactly if it is taken from a reply as it is. -/
theorem string_agrees : Stream.amount? (.string s) = some d ↔
    ofValue (.string s) = .ok (some d) ∧ Text.trim s.toList = s.toList := by
  rw [ofValue_string]
  constructor
  · intro h
    have htrim := Text.trim_eq (Decimal.not_blank_of_ofText? h)
    have hne : s.toList ≠ [] := by
      intro hempty
      rw [String.toList_eq_nil_iff.mp hempty] at h
      cases h
    rw [htrim, if_neg hne, String.ofList_toList, ofText_eq_ok_iff]
    exact ⟨h, rfl⟩
  · rintro ⟨h, htrim⟩
    rw [htrim] at h
    split at h
    · cases h
    · rwa [String.ofList_toList, ofText_eq_ok_iff] at h

theorem number_agrees {number : Number} :
    Stream.amount? (.number number) = some d ↔ ofValue (.number number) = .ok (some d) :=
  ofText_eq_ok_iff.symm

/-- A value is taken from a frame exactly if it is taken from a reply as it is. -/
theorem value_agrees : (∃ v, n.value? room = some v ∧ Stream.amount? v = some d) ↔
    (∃ v, n.value? room = some v ∧ ofValue v = .ok (some d)) ∧ ¬ Padded n := by
  cases n with
  | number l =>
    simp only [Node.value?, Option.map_eq_some_iff, exists_exists_and_eq_and, number_agrees, Padded,
      not_false_eq_true, and_true]
  | string text =>
    cases text with
    | none => simp [Node.value?]
    | some s =>
      simp only [Node.value?, Option.map_some, Option.some.injEq, exists_eq_left', string_agrees,
        Padded, not_not]
  | null => simp [Node.value?, Stream.amount?, ofValue]
  | bool b => simp [Node.value?, Stream.amount?, ofValue]
  | array items =>
    simp only [Node.value?]
    split <;> simp [Stream.amount?, ofValue]
  | object members =>
    simp only [Node.value?]
    split <;> simp [Stream.amount?, ofValue, Value.ofMembers]
  | broken => simp [Node.value?]

/-- **Amounts in replies and in the stream agree.**

* A part of a document is an amount in a frame exactly if it is one in a reply and not text with blanks
  at its ends, and then it is the same decimal.
* For numbers this is the decimal nearest to what the number shows, however it is written, and there is
  one exactly if the number is not too small and not too large for that. -/
theorem agrees_unless_padded (room : Nat) (n : Node) :
    (∀ d, ofFrame room n = some d ↔ required room n = .ok d ∧ ¬ Padded n) ∧
    ∀ l number, n = .number l → l.number? = some number →
      ((∃ d, required room n = .ok d) ↔
        Binary64.InReach number.shown ∧ Holds (nearestPlace number.shown)) ∧
      ∀ d, required room n = .ok d → d.value = nearestPlace number.shown := by
  constructor
  · intro d
    rw [required_eq_ok_iff, ofFrame, Option.bind_eq_some_iff]
    exact value_agrees
  · rintro l number rfl hnumber
    have hrequired : ∀ d, required room (.number l) = .ok d ↔ Decimal.ofText? number.text = some d := by
      intro d
      simp only [required_eq_ok_iff, Node.value?, hnumber, Option.map_some, Option.some.injEq,
        exists_eq_left']
      exact ofText_eq_ok_iff
    simp only [hrequired]
    exact Number.ofText?_text_iff hnumber

/-- A ten-millionth, written with a power of ten. -/
def tenMillionth : Literal := ⟨false, [1], none, some (true, [7])⟩

/-- The number and text that has an exponent, too, are the same amounts in replies and in the stream. -/
theorem agrees_at_exponents : ∃ (number : Number) (d e : Decimal),
    tenMillionth.number? = some number ∧ number.text = "1e-7" ∧
    required fullRoom (.number tenMillionth) = .ok d ∧
    ofFrame fullRoom (.number tenMillionth) = some d ∧ d.value = nearestPlace number.shown ∧
    required fullRoom (.string (some "+1_0.5E-3")) = .ok e ∧
    ofFrame fullRoom (.string (some "+1_0.5E-3")) = some e := by
  have htext : tenMillionth.number?.map Number.text = some "1e-7" := by decide +kernel
  obtain ⟨number, hnumber, htext⟩ := Option.map_eq_some_iff.mp htext
  have hd : required fullRoom (.number tenMillionth) =
      .ok ⟨false, 1, 7, by decide, by decide⟩ := (yields_iff.mpr (by decide +kernel)).1
  have he : required fullRoom (.string (some "+1_0.5E-3")) =
      .ok ⟨false, 105, 4, by decide, by decide⟩ := (yields_iff.mpr (by decide +kernel)).1
  obtain ⟨hframe, hvalue⟩ := agrees_unless_padded fullRoom (.number tenMillionth)
  refine ⟨number, _, _, hnumber, htext, hd, (hframe _).mpr ⟨hd, id⟩,
    (hvalue _ _ rfl hnumber).2 _ hd, he, ?_⟩
  have hbare : Text.trim "+1_0.5E-3".toList = "+1_0.5E-3".toList := by decide +kernel
  exact ((agrees_unless_padded fullRoom _).1 _).mpr ⟨he, not_not.mpr hbare⟩

end Amount

end SpotGateway
