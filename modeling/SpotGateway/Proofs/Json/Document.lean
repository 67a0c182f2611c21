import Mathlib.Data.List.TakeWhile
import SpotGateway.Proofs.Json.Literal

/-!
# Reading documents

How text is taken apart, and that what has been taken from it does not depend on what follows.

* `Document.Continues`, `Document.Ends` — a reader to which the text behind does not matter, and text
  that no number goes on with;
* `Document.string?_stringText` — strings are read as they have been written;
* `Document.run?`, `Document.unsigned?`, `Document.startsNumber` — parts of a number, and how it starts;
* `Document.Reads`, `Document.value_eq_some_iff`, `Document.items_eq_some_iff`,
  `Document.members_eq_some_iff` — how values, items and members are read;
* `Document.steady` — they are read in the same way with text behind them and more fuel;
* `Document.read_eq_iff` — the document of a text;
* `Node.depth`, `Node.value?_of_depth` — arrays and objects within each other, and the room for them.
-/

set_option autoImplicit false

namespace SpotGateway

namespace Text

/-- Digits end where they ended before other text was put behind them. -/
theorem takeDigits_append {tail : List Char} (htail : takeDigits tail = ([], tail)) (cs : List Char) :
    takeDigits (cs ++ tail) = ((takeDigits cs).1, (takeDigits cs).2 ++ tail) := by
  induction cs with
  | nil => exact htail
  | cons c cs ih =>
    rw [List.cons_append, takeDigits, takeDigits]
    cases digit? c with
    | none => rfl
    | some d => simp only [ih]

end Text

namespace Json

/-! ## Blanks -/

theorem skipBlanks_append {cs rest : List Char} {c : Char} (h : skipBlanks cs = c :: rest)
    (tail : List Char) : skipBlanks (cs ++ tail) = c :: (rest ++ tail) := by
  have hne : (cs.dropWhile isBlank).isEmpty = false := by
    rw [show cs.dropWhile isBlank = c :: rest from h]
    rfl
  unfold skipBlanks at h ⊢
  rw [List.dropWhile_append, hne, h]
  rfl

theorem skipBlanks_eq_nil_iff {cs : List Char} :
    skipBlanks cs = [] ↔ ∀ c ∈ cs, isBlank c = true := by
  rw [skipBlanks, List.dropWhile_eq_nil_iff]

theorem skipBlanks_cons {c : Char} (hc : isBlank c = false) (cs : List Char) :
    skipBlanks (c :: cs) = c :: cs := by
  rw [skipBlanks, List.dropWhile_cons, hc]
  rfl

/-- Blanks before a token are passed over. -/
theorem skipBlanks_token {gap : List Char} (hgap : ∀ c ∈ gap, isBlank c = true) {c : Char}
    (hc : isBlank c = false) (cs : List Char) : skipBlanks (gap ++ c :: cs) = c :: cs := by
  rw [skipBlanks, List.dropWhile_append_of_pos hgap, ← skipBlanks, skipBlanks_cons hc]

namespace Document

/-- What is read does not depend on the text that follows it. -/
def Continues {α : Type} (read : List Char → Option (α × List Char)) (tail : List Char) : Prop :=
  ∀ ⦃cs : List Char⦄ ⦃a : α⦄ ⦃rest : List Char⦄, read cs = some (a, rest) →
    read (cs ++ tail) = some (a, rest ++ tail)

/-- A number does not go on with the text. -/
structure Ends (tail : List Char) : Prop where
  digits : Text.takeDigits tail = ([], tail)
  fraction : fraction? tail = some (none, tail)
  exponent : exponent? tail = some (none, tail)

theorem ends_brace (rest : List Char) : Ends ('\x7d' :: rest) := ⟨rfl, rfl, rfl⟩

theorem units_escaped {c : Char} {u : Nat} (h : escaped? c = some u) (cs : List Char) :
    units ('\\' :: c :: cs) = (units cs).map fun (us, rest) => (u :: us, rest) := by
  have hc : c ≠ 'u' := by
    rintro rfl
    cases h
  rw [units]
  · rw [h]
    cases units cs <;> rfl
  · exact fun _ _ _ _ _ hu _ => hc hu

theorem units_plain {c : Char} (hquote : c ≠ '"') (hslash : c ≠ '\\') (hcontrol : ¬ c < ' ')
    (cs : List Char) :
    units (c :: cs) = (units cs).map fun (us, rest) => (c.toNat :: us, rest) := by
  rw [units]
  · rw [if_neg (not_or.mpr ⟨hcontrol, hslash⟩)]
    cases units cs <;> rfl
  · exact hquote
  · exact fun _ _ _ _ _ h _ => hslash h
  · exact fun _ _ h _ => hslash h

theorem units_continues (tail : List Char) : Continues units tail := by
  intro cs us r h
  fun_induction units cs generalizing us r with
  | case1 => cases h
  | case2 rest =>
    cases h
    rfl
  | case3 a b c d rest ih =>
    simp only [Option.bind_eq_bind, Option.bind_eq_some_iff] at h
    obtain ⟨u, hu, ⟨vs, r'⟩, hrest, h⟩ := h
    cases h
    simp only [List.cons_append, units, hu, ih hrest]
    rfl
  | case4 c rest hc ih =>
    simp only [Option.bind_eq_bind, Option.bind_eq_some_iff] at h
    obtain ⟨u, hu, ⟨vs, r'⟩, hrest, h⟩ := h
    cases h
    rw [List.cons_append, List.cons_append, units_escaped hu, ih hrest]
    rfl
  | case5 => cases h
  | case6 c rest hquote _ _ hplain ih =>
    obtain ⟨hcontrol, hslash⟩ := not_or.mp hplain
    simp only [Option.bind_eq_bind, Option.bind_eq_some_iff] at h
    obtain ⟨⟨vs, r'⟩, hrest, h⟩ := h
    cases h
    rw [List.cons_append, units_plain hquote hslash hcontrol, ih hrest]
    rfl

theorem string?_continues (tail : List Char) : Continues string? tail := by
  intro cs s r h
  obtain ⟨⟨us, r'⟩, hunits, h⟩ := Option.map_eq_some_iff.mp h
  cases h
  rw [string?, units_continues tail hunits]
  rfl

/-- Four hexadecimal digits stand for the control character that they have been made from. -/
theorem units_control {n : Nat} (hn : n < 32) (cs : List Char) :
    units (['\\', 'u'] ++ (Text.paddedHexadecimal 4 n).toList ++ cs) =
      (units cs).map fun (us, rest) => (n :: us, rest) := by
  have hall : ∀ n < 32, (Text.paddedHexadecimal 4 n).toList =
      ['0', '0', Nat.digitChar (n / 16), Nat.digitChar (n % 16)] ∧
      codeUnit? '0' '0' (Nat.digitChar (n / 16)) (Nat.digitChar (n % 16)) = some n := by
    decide +kernel
  obtain ⟨htext, hunit⟩ := hall n hn
  rw [htext]
  simp only [List.cons_append, List.nil_append, units, hunit]
  cases units cs <;> rfl

/-- A character is escaped by a letter or by its number, or it appears as it is. -/
theorem stringChar_cases (c : Char) :
    (∃ e, stringChar c = ['\\', e] ∧ escaped? e = some c.toNat) ∨
      (c < ' ' ∧ stringChar c = ['\\', 'u'] ++ (Text.paddedHexadecimal 4 c.toNat).toList) ∨
      (c ≠ '"' ∧ c ≠ '\\' ∧ ¬ c < ' ') ∧ stringChar c = [c] := by
  by_cases hletter : c ∈ ['"', '\\', '\x08', '\x0c', '\n', '\r', '\t']
  · left
    simp only [List.mem_cons, List.not_mem_nil, or_false] at hletter
    rcases hletter with rfl | rfl | rfl | rfl | rfl | rfl | rfl <;> exact ⟨_, rfl, rfl⟩
  · right
    simp only [List.mem_cons, List.not_mem_nil, or_false, not_or] at hletter
    obtain ⟨hquote, hslash, hb, hf, hn, hr, ht⟩ := hletter
    simp only [stringChar, if_neg hquote, if_neg hslash, if_neg hb, if_neg hf, if_neg hn, if_neg hr,
      if_neg ht]
    by_cases hcontrol : c < ' '
    · exact .inl ⟨hcontrol, if_pos hcontrol⟩
    · exact .inr ⟨⟨hquote, hslash, hcontrol⟩, if_neg hcontrol⟩

theorem units_stringChar (c : Char) (cs : List Char) :
    units (stringChar c ++ cs) = (units cs).map fun (us, rest) => (c.toNat :: us, rest) := by
  rcases stringChar_cases c with
    ⟨e, hchar, he⟩ | ⟨hcontrol, hchar⟩ | ⟨⟨hquote, hslash, hcontrol⟩, hchar⟩
  · rw [hchar]
    exact units_escaped he cs
  · rw [hchar]
    exact units_control hcontrol cs
  · rw [hchar]
    exact units_plain hquote hslash hcontrol cs

theorem units_stringText (cs rest : List Char) :
    units (cs.flatMap stringChar ++ '"' :: rest) = some (cs.map Char.toNat, rest) := by
  induction cs with
  | nil => rfl
  | cons c cs ih =>
    rw [List.flatMap_cons, List.append_assoc, units_stringChar, ih]
    rfl

theorem not_half (c : Char) : isHighHalf c.toNat = false ∧ isLowHalf c.toNat = false := by
  have hvalid : c.toNat < 0xD800 ∨ 0xDFFF < c.toNat ∧ c.toNat < 0x110000 := c.valid
  simp only [isHighHalf, isLowHalf, Bool.and_eq_false_iff, decide_eq_false_iff_not]
  omega

theorem joinPairs_toNat (cs : List Char) : joinPairs (cs.map Char.toNat) = some cs := by
  induction cs with
  | nil => rfl
  | cons c cs ih =>
    obtain ⟨hhigh, hlow⟩ := not_half c
    cases cs with
    | nil => simp [joinPairs, hhigh, hlow]
    | cons d cs =>
      rw [List.map_cons, List.map_cons, joinPairs, ← List.map_cons, ih]
      simp [hhigh, hlow]

theorem string?_stringText (s : String) (rest : List Char) :
    string? (s.toList.flatMap stringChar ++ '"' :: rest) = some (some s, rest) := by
  rw [string?, units_stringText]
  simp only [Option.map_some, joinPairs_toNat, String.ofList_toList]

/-! ## Numbers -/

section

variable {tail : List Char}

theorem whole?_eq_some_iff {cs rest : List Char} {ds : List Nat} :
    whole? cs = some (ds, rest) ↔
      Text.takeDigits cs = (ds, rest) ∧ ds ≠ [] ∧ (ds.head? = some 0 → ds = [0]) := by
  unfold whole?
  cases Text.takeDigits cs with
  | mk run behind =>
    match run with
    | [] => simp +contextual
    | [0] => simp +contextual [eq_comm]
    | 0 :: d :: run =>
      constructor
      · intro h
        cases h
      · rintro ⟨heq, -, hlead⟩
        cases heq
        cases hlead rfl
    | (d + 1) :: run =>
      constructor
      · intro h
        cases h
        exact ⟨rfl, by simp, by simp⟩
      · rintro ⟨heq, -, -⟩
        cases heq
        rfl

theorem whole?_continues (h : Ends tail) : Continues whole? tail := by
  intro cs ds rest hwhole
  obtain ⟨htake, hshape⟩ := whole?_eq_some_iff.mp hwhole
  rw [whole?_eq_some_iff, Text.takeDigits_append h.digits, htake]
  exact ⟨rfl, hshape⟩

/-- Digits, of which there has to be one. -/
def run? {α : Type} (f : List Nat → α) (cs : List Char) : Option (α × List Char) :=
  match Text.takeDigits cs with
  | ([], _) => none
  | (ds, rest) => some (f ds, rest)

theorem run?_continues {α : Type} (h : Ends tail) (f : List Nat → α) : Continues (run? f) tail := by
  intro cs a rest hread
  unfold run? at hread ⊢
  rw [Text.takeDigits_append h.digits]
  cases htake : Text.takeDigits cs with
  | mk run behind =>
    rw [htake] at hread
    cases run with
    | nil => cases hread
    | cons d run =>
      cases hread
      rfl

theorem fraction?_continues (h : Ends tail) : Continues fraction? tail := by
  intro cs f rest hfraction
  unfold fraction? at hfraction
  split at hfraction
  · exact run?_continues h some hfraction
  · rename_i hpoint
    cases hfraction
    cases cs with
    | nil => exact h.fraction
    | cons c cs =>
      rw [List.cons_append, fraction?]
      rintro cs hc
      cases hc
      exact hpoint _ rfl

theorem power?_unsigned {c : Char} (hminus : c ≠ '-') (hplus : c ≠ '+') (cs : List Char) :
    power? (c :: cs) = run? (fun ds => some (false, ds)) (c :: cs) := by
  unfold power?
  split
  rename_i hsign
  split at hsign
  · rename_i hc
    cases hc
    exact (hminus rfl).elim
  · rename_i hc
    cases hc
    exact (hplus rfl).elim
  · cases hsign
    rfl

theorem power?_continues (h : Ends tail) : Continues power? tail := by
  intro cs e rest hpower
  cases cs with
  | nil => cases hpower
  | cons c cs =>
    rw [List.cons_append]
    by_cases hminus : c = '-'
    · subst hminus
      exact run?_continues h (fun ds => some (true, ds)) hpower
    by_cases hplus : c = '+'
    · subst hplus
      exact run?_continues h (fun ds => some (false, ds)) hpower
    · rw [power?_unsigned hminus hplus] at hpower ⊢
      exact run?_continues h _ hpower

theorem exponent?_continues (h : Ends tail) : Continues exponent? tail := by
  intro cs e rest hexponent
  unfold exponent? at hexponent
  split at hexponent
  · exact power?_continues h hexponent
  · exact power?_continues h hexponent
  · rename_i hsmall hlarge
    cases hexponent
    cases cs with
    | nil => exact h.exponent
    | cons c cs =>
      rw [List.cons_append, exponent?]
      · rintro cs hc
        cases hc
        exact hsmall _ rfl
      · rintro cs hc
        cases hc
        exact hlarge _ rfl

/-- A number behind its sign. -/
def unsigned? (negative : Bool) (cs : List Char) : Option (Literal × List Char) := do
  let (ds, cs) ← whole? cs
  let (fraction, cs) ← fraction? cs
  let (exponent, cs) ← exponent? cs
  return (⟨negative, ds, fraction, exponent⟩, cs)

theorem unsigned?_continues (h : Ends tail) (negative : Bool) :
    Continues (unsigned? negative) tail := by
  intro cs l rest hnumber
  simp only [unsigned?, Option.bind_eq_bind, Option.bind_eq_some_iff] at hnumber
  obtain ⟨⟨ds, cs₁⟩, hwhole, ⟨f, cs₂⟩, hfraction, ⟨e, cs₃⟩, hexponent, hnumber⟩ := hnumber
  cases hnumber
  simp only [unsigned?, whole?_continues h hwhole, fraction?_continues h hfraction,
    exponent?_continues h hexponent, Option.bind_eq_bind, Option.bind_some]
  rfl

theorem number?_unsigned {c : Char} (hminus : c ≠ '-') (cs : List Char) :
    number? (c :: cs) = unsigned? false (c :: cs) := by
  unfold number?
  split
  rename_i hsign
  split at hsign
  · rename_i hc
    cases hc
    exact (hminus rfl).elim
  · cases hsign
    rfl

theorem number?_continues (h : Ends tail) : Continues number? tail := by
  intro cs l rest hnumber
  cases cs with
  | nil => cases hnumber
  | cons c cs =>
    rw [List.cons_append]
    by_cases hminus : c = '-'
    · subst hminus
      exact unsigned?_continues h true hnumber
    · rw [number?_unsigned hminus] at hnumber ⊢
      exact unsigned?_continues h false hnumber

end

/-- The first character of a number. -/
def startsNumber (c : Char) : Bool := c = '-' || (Text.digit? c).isSome

theorem startsNumber_of_number? {cs rest : List Char} {l : Literal}
    (h : number? cs = some (l, rest)) : ∃ c r, cs = c :: r ∧ startsNumber c = true := by
  cases cs with
  | nil => cases h
  | cons c cs =>
    refine ⟨c, cs, rfl, ?_⟩
    by_cases hminus : c = '-'
    · subst hminus
      rfl
    cases hdigit : Text.digit? c with
    | some d => simp [startsNumber, hdigit]
    | none =>
      have hwhole : whole? (c :: cs) = none := by
        simp only [whole?, Text.takeDigits, hdigit]
      rw [number?_unsigned hminus, unsigned?, hwhole] at h
      cases h

/-! ## Values -/

/-- How a value is read. -/
inductive Reads (fuel : Nat) (cs : List Char) : Node → List Char → Prop where
  | null {rest : List Char} (h : skipBlanks cs = 'n' :: 'u' :: 'l' :: 'l' :: rest) :
    Reads fuel cs .null rest
  | yes {rest : List Char} (h : skipBlanks cs = 't' :: 'r' :: 'u' :: 'e' :: rest) :
    Reads fuel cs (.bool true) rest
  | no {rest : List Char} (h : skipBlanks cs = 'f' :: 'a' :: 'l' :: 's' :: 'e' :: rest) :
    Reads fuel cs (.bool false) rest
  | string {text rest : List Char} {s : Chars} (h : skipBlanks cs = '"' :: text)
    (hs : string? text = some (s, rest)) : Reads fuel cs (.string s) rest
  | number {rest : List Char} {l : Literal} (hl : number? (skipBlanks cs) = some (l, rest)) :
    Reads fuel cs (.number l) rest
  | noItems {inner rest : List Char} (h : skipBlanks cs = '[' :: inner)
    (hinner : skipBlanks inner = ']' :: rest) : Reads fuel cs (.array []) rest
  | items {inner first rest : List Char} {c : Char} {ns : List Node}
    (h : skipBlanks cs = '[' :: inner) (hinner : skipBlanks inner = c :: first) (hc : c ≠ ']')
    (hitems : items fuel (c :: first) = (ns, some rest)) : Reads fuel cs (.array ns) rest
  | noMembers {inner rest : List Char} (h : skipBlanks cs = '\x7b' :: inner)
    (hinner : skipBlanks inner = '\x7d' :: rest) : Reads fuel cs (.object []) rest
  | members {inner first rest : List Char} {c : Char} {ms : List (Chars × Node)}
    (h : skipBlanks cs = '\x7b' :: inner) (hinner : skipBlanks inner = c :: first) (hc : c ≠ '\x7d')
    (hmembers : members fuel (c :: first) = (ms, some rest)) : Reads fuel cs (.object ms) rest

theorem items_nil (fuel : Nat) : (items fuel []).2 = none := by
  cases fuel with
  | zero => rfl
  | succ fuel => cases fuel <;> rfl

theorem members_nil (fuel : Nat) : (members fuel []).2 = none := by
  cases fuel <;> rfl

theorem value_of_number? {fuel : Nat} {cs rest : List Char} {l : Literal}
    (h : number? (skipBlanks cs) = some (l, rest)) :
    value (fuel + 1) cs = (.number l, some rest) := by
  obtain ⟨c, r, hstart, hc⟩ := startsNumber_of_number? h
  have hne : ∀ {d : Char} {text : List Char}, startsNumber d = false → skipBlanks cs ≠ d :: text := by
    intro d text hd heq
    rw [hstart] at heq
    cases heq
    rw [hc] at hd
    cases hd
  unfold value
  split
  · exact absurd ‹_› (hne (by decide))
  · exact absurd ‹_› (hne (by decide))
  · exact absurd ‹_› (hne (by decide))
  · exact absurd ‹_› (hne (by decide))
  · exact absurd ‹_› (hne (by decide))
  · exact absurd ‹_› (hne (by decide))
  · rw [h]

/-- What is read behind an opening bracket has a first character, other than the closing bracket. -/
theorem exists_first {α : Type} {read : List Char → α × Option (List Char)} {close : Char}
    {inner rest : List Char} (hnil : (read []).2 = none)
    (hclose : ∀ r, skipBlanks inner = close :: r → False)
    (hrest : (read (skipBlanks inner)).2 = some rest) :
    ∃ c first, skipBlanks inner = c :: first ∧ c ≠ close ∧
      read (c :: first) = ((read (skipBlanks inner)).1, some rest) := by
  cases hinner : skipBlanks inner with
  | nil =>
    rw [hinner, hnil] at hrest
    cases hrest
  | cons c first =>
    rw [hinner] at hrest
    refine ⟨c, first, rfl, ?_, Prod.ext rfl hrest⟩
    rintro rfl
    exact hclose first hinner

/-- A value is read in one of these ways. -/
theorem value_eq_some_iff {fuel : Nat} {cs rest : List Char} {n : Node} :
    value (fuel + 1) cs = (n, some rest) ↔ Reads fuel cs n rest := by
  constructor
  · intro h
    unfold value at h
    split at h
    · cases h
      exact .null ‹_›
    · cases h
      exact .yes ‹_›
    · cases h
      exact .no ‹_›
    · split at h
      · cases h
        exact .string ‹_› ‹_›
      · cases h
    · split at h
      · cases h
        exact .noItems ‹_› ‹_›
      · rename_i inner hopen _ hclose
        obtain ⟨rfl, hrest⟩ := Prod.mk.inj h
        obtain ⟨c, first, hinner, hc, hitems⟩ := exists_first (items_nil fuel) hclose hrest
        exact .items hopen hinner hc hitems
    · split at h
      · cases h
        exact .noMembers ‹_› ‹_›
      · rename_i inner hopen _ hclose
        obtain ⟨rfl, hrest⟩ := Prod.mk.inj h
        obtain ⟨c, first, hinner, hc, hmembers⟩ := exists_first (members_nil fuel) hclose hrest
        exact .members hopen hinner hc hmembers
    · split at h
      · cases h
        exact .number ‹_›
      · cases h
  · intro h
    cases h with
    | null h => simp only [value, h]
    | yes h => simp only [value, h]
    | no h => simp only [value, h]
    | string h hs => simp only [value, h, hs]
    | number h => exact value_of_number? h
    | noItems h hinner => simp only [value, h, hinner]
    | items h hinner hc hitems =>
      simp only [value, h, hinner]
      split
      · rename_i heq
        cases heq
        exact (hc rfl).elim
      · rw [hitems]
    | noMembers h hinner => simp only [value, h, hinner]
    | members h hinner hc hmembers =>
      simp only [value, h, hinner]
      split
      · rename_i heq
        cases heq
        exact (hc rfl).elim
      · rw [hmembers]

theorem items_eq_some_iff {fuel : Nat} {cs rest : List Char} {ns : List Node} :
    items (fuel + 1) cs = (ns, some rest) ↔
      ∃ n r, value fuel cs = (n, some r) ∧
        (skipBlanks r = ']' :: rest ∧ ns = [n] ∨
          ∃ next ns', skipBlanks r = ',' :: next ∧ items fuel next = (ns', some rest) ∧
            ns = n :: ns') := by
  constructor
  · intro h
    unfold items at h
    split at h
    · cases h
    · rename_i n r hvalue
      refine ⟨n, r, hvalue, ?_⟩
      split at h
      · obtain ⟨rfl, hrest⟩ := Prod.mk.inj h
        exact .inr ⟨_, _, ‹_›, Prod.ext rfl hrest, rfl⟩
      · cases h
        exact .inl ⟨‹_›, rfl⟩
      · cases h
  · rintro ⟨n, r, hvalue, ⟨hclose, rfl⟩ | ⟨next, ns', hcomma, hitems, rfl⟩⟩
    · simp only [items, hvalue, hclose]
    · simp only [items, hvalue, hcomma, hitems]

theorem members_eq_some_iff {fuel : Nat} {cs rest : List Char} {ms : List (Chars × Node)} :
    members (fuel + 1) cs = (ms, some rest) ↔
      ∃ text key r content n behind, skipBlanks cs = '"' :: text ∧ string? text = some (key, r) ∧
        skipBlanks r = ':' :: content ∧ value fuel content = (n, some behind) ∧
        (skipBlanks behind = '\x7d' :: rest ∧ ms = [(key, n)] ∨
          ∃ next ms', skipBlanks behind = ',' :: next ∧ members fuel next = (ms', some rest) ∧
            ms = (key, n) :: ms') := by
  constructor
  · intro h
    unfold members at h
    split at h
    · rename_i text hquote
      split at h
      · cases h
      · rename_i key r hkey
        split at h
        · rename_i content hcolon
          split at h
          · cases h
          · rename_i n behind hvalue
            refine ⟨text, key, r, content, n, behind, hquote, hkey, hcolon, hvalue, ?_⟩
            split at h
            · obtain ⟨rfl, hrest⟩ := Prod.mk.inj h
              exact .inr ⟨_, _, ‹_›, Prod.ext rfl hrest, rfl⟩
            · cases h
              exact .inl ⟨‹_›, rfl⟩
            · cases h
        · cases h
    · cases h
  · rintro ⟨text, key, r, content, n, behind, hquote, hkey, hcolon, hvalue,
      ⟨hclose, rfl⟩ | ⟨next, ms', hcomma, hmembers, rfl⟩⟩
    · simp only [members, hquote, hkey, hcolon, hvalue, hclose]
    · simp only [members, hquote, hkey, hcolon, hvalue, hcomma, hmembers]

/-- What has been read with some fuel does not change with other fuel and text behind it. -/
structure Steady (tail : List Char) (fuel fuel' : Nat) : Prop where
  value : ∀ {cs rest n}, value fuel cs = (n, some rest) →
    value fuel' (cs ++ tail) = (n, some (rest ++ tail))
  items : ∀ {cs rest ns}, items fuel cs = (ns, some rest) →
    items fuel' (cs ++ tail) = (ns, some (rest ++ tail))
  members : ∀ {cs rest ms}, members fuel cs = (ms, some rest) →
    members fuel' (cs ++ tail) = (ms, some (rest ++ tail))

section

variable {tail : List Char} {fuel fuel' : Nat}

theorem Reads.append {cs rest : List Char} {n : Node} (htail : Ends tail)
    (hsteady : Steady tail fuel fuel') (h : Reads fuel cs n rest) :
    Reads fuel' (cs ++ tail) n (rest ++ tail) := by
  cases h with
  | null h => exact .null (skipBlanks_append h tail)
  | yes h => exact .yes (skipBlanks_append h tail)
  | no h => exact .no (skipBlanks_append h tail)
  | string h hs => exact .string (skipBlanks_append h tail) (string?_continues tail hs)
  | number h =>
    obtain ⟨c, r, hstart, -⟩ := startsNumber_of_number? h
    rw [hstart] at h
    have hnumber := number?_continues htail h
    rw [List.cons_append, ← skipBlanks_append hstart] at hnumber
    exact .number hnumber
  | noItems h hinner => exact .noItems (skipBlanks_append h tail) (skipBlanks_append hinner tail)
  | items h hinner hc hitems =>
    exact .items (skipBlanks_append h tail) (skipBlanks_append hinner tail) hc
      (hsteady.items hitems)
  | noMembers h hinner => exact .noMembers (skipBlanks_append h tail) (skipBlanks_append hinner tail)
  | members h hinner hc hmembers =>
    exact .members (skipBlanks_append h tail) (skipBlanks_append hinner tail) hc
      (hsteady.members hmembers)

/-- One more of fuel on both sides. -/
theorem Steady.succ (htail : Ends tail) (h : Steady tail fuel fuel') :
    Steady tail (fuel + 1) (fuel' + 1) := by
  constructor
  · intro cs rest n hvalue
    exact value_eq_some_iff.mpr ((value_eq_some_iff.mp hvalue).append htail h)
  · intro cs rest ns hitems
    obtain ⟨n, r, hvalue, hend⟩ := items_eq_some_iff.mp hitems
    refine items_eq_some_iff.mpr ⟨n, r ++ tail, h.value hvalue, ?_⟩
    rcases hend with ⟨hclose, rfl⟩ | ⟨next, ns', hcomma, hnext, rfl⟩
    · exact .inl ⟨skipBlanks_append hclose tail, rfl⟩
    · exact .inr ⟨_, _, skipBlanks_append hcomma tail, h.items hnext, rfl⟩
  · intro cs rest ms hmembers
    obtain ⟨text, key, r, content, n, behind, hquote, hkey, hcolon, hvalue, hend⟩ :=
      members_eq_some_iff.mp hmembers
    refine members_eq_some_iff.mpr ⟨_, key, _, _, n, behind ++ tail, skipBlanks_append hquote tail,
      string?_continues tail hkey, skipBlanks_append hcolon tail, h.value hvalue, ?_⟩
    rcases hend with ⟨hclose, rfl⟩ | ⟨next, ms', hcomma, hnext, rfl⟩
    · exact .inl ⟨skipBlanks_append hclose tail, rfl⟩
    · exact .inr ⟨_, _, skipBlanks_append hcomma tail, h.members hnext, rfl⟩

/-- **What has been read stays the same with more fuel and text behind it,** if no number goes on with
that text. -/
theorem steady (htail : Ends tail) (hfuel : fuel ≤ fuel') : Steady tail fuel fuel' := by
  induction fuel generalizing fuel' with
  | zero =>
    constructor
    · rintro _ _ _ ⟨⟩
    · rintro _ _ _ ⟨⟩
    · rintro _ _ _ ⟨⟩
  | succ fuel ih =>
    obtain ⟨fuel', rfl⟩ := Nat.exists_eq_add_one_of_ne_zero (Nat.ne_zero_of_lt hfuel)
    exact (ih (Nat.le_of_succ_le_succ hfuel)).succ htail

end

theorem read_eq_iff {text : String} {n : Node} : read text = (n, true) ↔
    ∃ rest, value (2 * text.toList.length + 2) text.toList = (n, some rest) ∧
      skipBlanks rest = [] := by
  unfold read
  simp only
  cases value (2 * text.toList.length + 2) text.toList with
  | mk n' rest =>
    cases rest with
    | none => simp
    | some rest => simp

end Document

/-! ## Depth -/

mutual

/-- How many arrays and objects are within each other. -/
def Node.depth : Node → Nat
  | .array items => Node.itemsDepth items + 1
  | .object members => Node.membersDepth members + 1
  | _ => 0

/-- The depth of the deepest item. -/
def Node.itemsDepth : List Node → Nat
  | [] => 0
  | n :: ns => max n.depth (Node.itemsDepth ns)

/-- The depth of the deepest member. -/
def Node.membersDepth : List (Chars × Node) → Nat
  | [] => 0
  | (_, n) :: ms => max n.depth (Node.membersDepth ms)

end

mutual

/-- Room beyond the depth does not matter. -/
theorem Node.value?_of_depth {room room' : Nat} : ∀ n : Node, n.depth < room → n.depth < room' →
    n.value? room = n.value? room'
  | .null, _, _ => rfl
  | .bool _, _, _ => rfl
  | .number _, _, _ => rfl
  | .string _, _, _ => rfl
  | .broken, _, _ => rfl
  | .array items, h, h' => by
    rw [Node.depth] at h h'
    have hitems := Node.values?_of_depth items (Nat.lt_sub_of_add_lt h) (Nat.lt_sub_of_add_lt h')
    rw [Node.value?, Node.value?, hitems, if_pos (by omega), if_pos (by omega)]
  | .object members, h, h' => by
    rw [Node.depth] at h h'
    have hmembers := Node.memberValues?_of_depth members (Nat.lt_sub_of_add_lt h)
      (Nat.lt_sub_of_add_lt h')
    rw [Node.value?, Node.value?, hmembers, if_pos (by omega), if_pos (by omega)]

theorem Node.values?_of_depth {room room' : Nat} : ∀ ns : List Node, Node.itemsDepth ns < room →
    Node.itemsDepth ns < room' → Node.values? room ns = Node.values? room' ns
  | [], _, _ => rfl
  | n :: ns, h, h' => by
    rw [Node.itemsDepth, Nat.max_lt] at h h'
    rw [Node.values?, Node.values?, Node.value?_of_depth n h.1 h'.1,
      Node.values?_of_depth ns h.2 h'.2]

theorem Node.memberValues?_of_depth {room room' : Nat} : ∀ ms : List (Chars × Node),
    Node.membersDepth ms < room → Node.membersDepth ms < room' →
    Node.memberValues? room ms = Node.memberValues? room' ms
  | [], _, _ => rfl
  | (_, n) :: ms, h, h' => by
    rw [Node.membersDepth, Nat.max_lt] at h h'
    rw [Node.memberValues?, Node.memberValues?, Node.value?_of_depth n h.1 h'.1,
      Node.memberValues?_of_depth ms h.2 h'.2]

end

end Json

end SpotGateway
