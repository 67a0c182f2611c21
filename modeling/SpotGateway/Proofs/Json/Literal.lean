import SpotGateway.Json.Document
import SpotGateway.Proofs.Decimal.Reading
import SpotGateway.Text.Blank

/-!
# Number literals

The number that a literal stands for, and the text that it has been taken from.

* `Literal.value` — the number, and `Literal.base` — the one before the exponent;
* `Literal.Written` — how text and literal belong together;
* `Document.written_of_number?` — the text of a literal;
* `Literal.Written.not_blank` — there are no blanks in it.
-/

set_option autoImplicit false

namespace SpotGateway

namespace Text

theorem not_blank_of_isDigit {c : Char} (h : c.isDigit = true) : isBlank c = false := by
  have hall : ∀ n < 58, 48 ≤ n → blanks.contains n = false := by decide
  rw [Char.isDigit, Bool.and_eq_true, decide_eq_true_eq, decide_eq_true_eq] at h
  exact hall c.toNat (Nat.lt_succ_of_le h.2) h.1

theorem trim_eq {cs : List Char} (h : ∀ c ∈ cs, isBlank c = false) : trim cs = cs := by
  have hstart : ∀ {cs : List Char}, (∀ c ∈ cs, isBlank c = false) → trimStart cs = cs := by
    intro cs hcs
    cases cs with
    | nil => rfl
    | cons c cs => rw [trimStart, List.dropWhile_cons, hcs c List.mem_cons_self]; rfl
  rw [trim, hstart h, hstart fun c hc => h c (List.mem_reverse.mp hc), List.reverse_reverse]

end Text

namespace Json

open Decimal (plain plainValue powerText moved)

namespace Literal

/-- All digits, before and behind the point. -/
def digits (l : Literal) : List Nat := l.whole ++ l.fraction.getD []

/-- How many digits stand behind the point. -/
def places (l : Literal) : Nat := (l.fraction.getD []).length

/-- The number before the exponent. -/
def base (l : Literal) : ℚ := signOf l.negative * Text.valueOf l.digits / 10 ^ l.places

/-- The number that the literal stands for. -/
def value (l : Literal) : ℚ := l.base * 10 ^ l.power

end Literal

namespace Literal

variable {l : Literal}

theorem value_of_plain (h : l.exponent = none) : l.value = l.base := by
  rw [value, power, h, zpow_zero, mul_one]

/-- An exponent moves the point. -/
theorem value_of_exponent {down : Bool} {es : List Char}
    (h : l.exponent = some (down, es.map Text.digitOf)) :
    l.value = moved down (Nat.ofDigitChars 10 es 0) l.base := by
  rw [value, power, h]
  cases down with
  | true =>
    show l.base * 10 ^ (-(Text.valueOf (es.map Text.digitOf) : Int)) = _
    rw [Text.valueOf_map, zpow_neg, zpow_natCast, ← div_eq_mul_inv]
    rfl
  | false =>
    show l.base * 10 ^ (Text.valueOf (es.map Text.digitOf) : Int) = _
    rw [Text.valueOf_map, zpow_natCast]
    rfl

end Literal

/-- The exponent of a literal and its text. -/
inductive WrittenPower : Option (Bool × List Nat) → List Char → Prop where
  | none : WrittenPower none []
  | some {mark : Char} (hmark : mark = 'e' ∨ mark = 'E') (down plus : Bool) {es : List Char}
      (hne : es ≠ []) (hes : ∀ c ∈ es, c.isDigit = true) :
      WrittenPower (some (down, es.map Text.digitOf)) (mark :: powerText down plus es)

theorem WrittenPower.mem {e : Option (Bool × List Nat)} {ps : List Char} (h : WrittenPower e ps) :
    ∀ c ∈ ps, c = 'e' ∨ c = 'E' ∨ c = '-' ∨ c = '+' ∨ c.isDigit = true := by
  intro c hc
  cases h with
  | none => cases hc
  | some hmark down plus hne hes =>
    rcases List.mem_cons.mp hc with rfl | hc
    · exact hmark.imp_right .inl
    · refine .inr (.inr ?_)
      unfold powerText at hc
      split at hc
      · exact (List.mem_cons.mp hc).imp_right fun hc => .inr (hes c hc)
      · split at hc
        · exact .inr ((List.mem_cons.mp hc).imp_right (hes c))
        · exact .inr (.inr (hes c hc))

/-- A literal with the digits before and behind its point and the text of its exponent. -/
structure Written (l : Literal) (ws fs ps : List Char) : Prop where
  whole_ne : ws ≠ []
  whole_digits : ∀ c ∈ ws, c.isDigit = true
  fraction_digits : ∀ c ∈ fs, c.isDigit = true
  whole : l.whole = ws.map Text.digitOf
  fraction : l.fraction.getD [] = fs.map Text.digitOf
  power : WrittenPower l.exponent ps

namespace Document

theorem exists_of_whole? {cs rest : List Char} {ds : List Nat} (h : whole? cs = some (ds, rest)) :
    ∃ ws, cs = ws ++ rest ∧ ws ≠ [] ∧ (∀ c ∈ ws, c.isDigit = true) ∧ ds = ws.map Text.digitOf := by
  have htake : Text.takeDigits cs = (ds, rest) ∧ ds ≠ [] := by
    unfold whole? at h
    split at h
    · cases h
    · rename_i htake
      cases h
      exact ⟨htake, by simp⟩
    · cases h
    · rename_i hne _ _ htake
      cases h
      exact ⟨htake, hne⟩
  obtain ⟨ws, hcs, hdigits, hvalues⟩ := Text.exists_of_takeDigits htake.1
  refine ⟨ws, hcs, ?_, hdigits, hvalues⟩
  rintro rfl
  exact htake.2 hvalues

theorem exists_of_fraction? {cs rest : List Char} {f : Option (List Nat)}
    (h : fraction? cs = some (f, rest)) :
    ∃ fs, cs = (if fs = [] then [] else '.' :: fs) ++ rest ∧ (∀ c ∈ fs, c.isDigit = true) ∧
      f.getD [] = fs.map Text.digitOf := by
  unfold fraction? at h
  split at h
  · rename_i cs
    split at h
    · cases h
    · rename_i ds rest' hne htake
      cases h
      obtain ⟨fs, hcs, hdigits, hvalues⟩ := Text.exists_of_takeDigits htake
      have hfs : fs ≠ [] := by
        rintro rfl
        exact hne hvalues
      exact ⟨fs, by rw [if_neg hfs, hcs]; rfl, hdigits, hvalues⟩
  · cases h
    exact ⟨[], rfl, by simp, rfl⟩

theorem exists_of_power? {cs rest : List Char} {e : Option (Bool × List Nat)} {mark : Char}
    (hmark : mark = 'e' ∨ mark = 'E') (hpower : power? cs = some (e, rest)) :
    ∃ ps, mark :: cs = ps ++ rest ∧ WrittenPower e ps := by
  unfold power? at hpower
  split at hpower
  rename_i down body hsign
  obtain ⟨plus, rfl⟩ : ∃ plus, cs = powerText down plus body := by
    split at hsign
    · cases hsign
      exact ⟨false, rfl⟩
    · cases hsign
      exact ⟨true, rfl⟩
    · cases hsign
      exact ⟨false, rfl⟩
  split at hpower
  · cases hpower
  · rename_i ds rest' hne htake
    cases hpower
    obtain ⟨es, rfl, hdigits, rfl⟩ := Text.exists_of_takeDigits htake
    have hes : es ≠ [] := by
      rintro rfl
      exact hne rfl
    refine ⟨mark :: powerText down plus es, ?_, .some hmark down plus hes hdigits⟩
    unfold powerText
    split
    · rfl
    · split <;> rfl

theorem exists_of_exponent? {cs rest : List Char} {e : Option (Bool × List Nat)}
    (h : exponent? cs = some (e, rest)) : ∃ ps, cs = ps ++ rest ∧ WrittenPower e ps := by
  unfold exponent? at h
  split at h
  · exact exists_of_power? (.inl rfl) h
  · exact exists_of_power? (.inr rfl) h
  · cases h
    exact ⟨[], rfl, .none⟩

/-- **Every literal has been taken from its text.** -/
theorem written_of_number? {cs : List Char} {l : Literal} (h : number? cs = some (l, [])) :
    ∃ ws fs ps, cs = plain l.negative ws fs ++ ps ∧ Written l ws fs ps := by
  unfold number? at h
  split at h
  rename_i negative body hsign
  simp only [Option.bind_eq_bind, Option.bind_eq_some_iff] at h
  obtain ⟨⟨ds, rest⟩, hwhole, ⟨f, rest'⟩, hfraction, ⟨e, rest''⟩, hexponent, h⟩ := h
  cases h
  obtain ⟨ws, rfl, hne, hws, hds⟩ := exists_of_whole? hwhole
  obtain ⟨fs, rfl, hfs, hf⟩ := exists_of_fraction? hfraction
  obtain ⟨ps, rfl, hpower⟩ := exists_of_exponent? hexponent
  refine ⟨ws, fs, ps, ?_, hne, hws, hfs, hds, hf, hpower⟩
  have hcs : cs = (if negative then ['-'] else []) ++
      (ws ++ ((if fs = [] then [] else '.' :: fs) ++ (ps ++ []))) := by
    split at hsign
    · cases hsign
      rfl
    · cases hsign
      rfl
  rw [hcs, plain, List.append_nil]
  simp only [List.append_assoc]

end Document

namespace Written

variable {l : Literal} {ws fs ps : List Char}

theorem base_eq (h : Written l ws fs ps) : l.base = plainValue l.negative ws fs := by
  rw [Literal.base, Literal.digits, Literal.places, h.whole, h.fraction, ← List.map_append,
    Text.valueOf_map, List.length_map, plainValue]

/-- Without an exponent the number is the one that the digits stand for; an exponent moves the
point. -/
theorem power_cases (h : Written l ws fs ps) :
    (ps = [] ∧ l.value = l.base) ∨
      ∃ (mark : Char) (down plus : Bool) (es : List Char), (mark = 'e' ∨ mark = 'E') ∧ es ≠ [] ∧
        (∀ c ∈ es, c.isDigit = true) ∧ ps = mark :: powerText down plus es ∧
          l.value = moved down (Nat.ofDigitChars 10 es 0) l.base := by
  have hpower := h.power
  cases he : l.exponent with
  | none =>
    rw [he] at hpower
    cases hpower
    exact .inl ⟨rfl, l.value_of_plain he⟩
  | some e =>
    rw [he] at hpower
    cases hpower with
    | @some mark hmark down plus es hne hes =>
      exact .inr ⟨mark, down, plus, es, hmark, hne, hes, rfl, l.value_of_exponent he⟩

/-- The characters of a number are no blanks. -/
theorem not_blank (h : Written l ws fs ps) :
    ∀ c ∈ plain l.negative ws fs ++ ps, Text.isBlank c = false := by
  intro c hc
  rcases List.mem_append.mp hc with hc | hc
  · rcases Decimal.mem_plain h.whole_digits h.fraction_digits c hc with rfl | rfl | hdigit
    · decide
    · decide
    · exact Text.not_blank_of_isDigit hdigit
  · rcases h.power.mem c hc with rfl | rfl | rfl | rfl | hdigit
    · decide
    · decide
    · decide
    · decide
    · exact Text.not_blank_of_isDigit hdigit

end Written

end Json

end SpotGateway
