import SpotGateway.Proofs.Binary64.Text
import SpotGateway.Proofs.Json.Document

/-!
# Documents that have been written

Numbers, strings and objects of them are read as they have been written.

* `Document.number?_plain` — positional digits with an exponent;
* `Binary64.number?_text` — floating-point numbers;
* `Document.Spells` — text that a value is read from, whatever follows it;
* `Document.read_objectText` — an object.
-/

set_option autoImplicit false

namespace SpotGateway

open Decimal (plain plainValue powerText moved)

namespace Json.Document

theorem takeDigits_written {ds rest : List Char} (hds : ∀ c ∈ ds, c.isDigit = true)
    (hrest : Text.takeDigits rest = ([], rest)) :
    Text.takeDigits (ds ++ rest) = (ds.map Text.digitOf, rest) := by
  rw [Text.takeDigits_append hrest, Text.takeDigits_of_isDigit hds]
  rfl

/-- The exponent as it has been written. -/
theorem exponent?_of_written {e : Option (Bool × List Nat)} {ps : List Char}
    (h : WrittenPower e ps) : exponent? ps = some (e, []) := by
  cases h with
  | none => rfl
  | @some mark hmark down plus es hne hes =>
    obtain ⟨c, cs, rfl⟩ := List.exists_cons_of_ne_nil hne
    have hdigits := Text.takeDigits_of_isDigit hes
    have hpower : power? (powerText down plus (c :: cs)) =
        some (some (down, (c :: cs).map Text.digitOf), []) := by
      cases down with
      | true => simp [powerText, power?, hdigits]
      | false =>
        cases plus with
        | true => simp [powerText, power?, hdigits]
        | false =>
          have hc := hes c List.mem_cons_self
          rw [powerText, if_neg (by decide), if_neg (by decide),
            power?_unsigned (Text.ne_of_isDigit hc rfl) (Text.ne_of_isDigit hc rfl), run?, hdigits]
          rfl
    rcases hmark with rfl | rfl
    · exact hpower
    · exact hpower

/-- An exponent is neither a digit nor a point. -/
theorem ends_of_written {e : Option (Bool × List Nat)} {ps : List Char} (h : WrittenPower e ps) :
    Text.takeDigits ps = ([], ps) ∧ fraction? ps = some (none, ps) := by
  cases h with
  | none => exact ⟨rfl, rfl⟩
  | some hmark down plus hne hes => rcases hmark with rfl | rfl <;> exact ⟨rfl, rfl⟩

theorem digit_eq_zero {c : Char} (h : c.isDigit = true) (hzero : Text.digitOf c = 0) : c = '0' := by
  have hall : ∀ n < 58, n - 48 = 0 → 48 ≤ n → n = 48 := by decide
  rw [Char.isDigit, Bool.and_eq_true, decide_eq_true_eq, decide_eq_true_eq] at h
  have hn : c.toNat = 48 := hall c.toNat (Nat.lt_succ_of_le h.2) hzero h.1
  rw [← Char.ofNat_toNat c, hn]

/-- Positional digits are read as they have been written, if they do not start with a needless
zero. -/
theorem number?_plain (negative : Bool) {ws fs ps : List Char} {e : Option (Bool × List Nat)}
    (hne : ws ≠ []) (hws : ∀ c ∈ ws, c.isDigit = true) (hlead : ws.head? = some '0' → ws = ['0'])
    (hfs : ∀ c ∈ fs, c.isDigit = true) (hps : WrittenPower e ps) :
    ∃ l, number? (plain negative ws fs ++ ps) = some (l, []) ∧
      l.base = plainValue negative ws fs ∧ l.exponent = e := by
  obtain ⟨hdigits, hnone⟩ := ends_of_written hps
  obtain ⟨fraction, hfraction, hshown⟩ : ∃ fraction,
      fraction? ((if fs = [] then [] else '.' :: fs) ++ ps) = some (fraction, ps) ∧
        fraction.getD [] = fs.map Text.digitOf := by
    cases fs with
    | nil => exact ⟨none, hnone, rfl⟩
    | cons c cs =>
      refine ⟨some ((c :: cs).map Text.digitOf), ?_, rfl⟩
      rw [if_neg (List.cons_ne_nil _ _), List.cons_append, fraction?,
        takeDigits_written hfs hdigits]
      rfl
  have hwhole : whole? (ws ++ ((if fs = [] then [] else '.' :: fs) ++ ps)) =
      some (ws.map Text.digitOf, (if fs = [] then [] else '.' :: fs) ++ ps) := by
    refine whole?_eq_some_iff.mpr ⟨takeDigits_written hws ?_, by simpa using hne, ?_⟩
    · split
      · exact hdigits
      · rfl
    · intro hzero
      obtain ⟨c, cs, rfl⟩ := List.exists_cons_of_ne_nil hne
      have hc := digit_eq_zero (hws c List.mem_cons_self) (Option.some.inj hzero)
      rw [hlead (congrArg some hc)]
      rfl
  have hwritten : Written ⟨negative, ws.map Text.digitOf, fraction, e⟩ ws fs ps :=
    ⟨hne, hws, hfs, rfl, hshown, hps⟩
  refine ⟨_, ?_, hwritten.base_eq, rfl⟩
  have hunsigned : unsigned? negative (ws ++ ((if fs = [] then [] else '.' :: fs) ++ ps)) =
      some (⟨negative, ws.map Text.digitOf, fraction, e⟩, []) := by
    simp only [unsigned?, hwhole, hfraction, exponent?_of_written hps, Option.bind_eq_bind,
      Option.bind_some, Option.pure_def]
  rw [plain, List.append_assoc, List.append_assoc]
  cases negative with
  | true => exact hunsigned
  | false =>
    obtain ⟨c, cs, rfl⟩ := List.exists_cons_of_ne_nil hne
    have hminus : c ≠ '-' := Text.ne_of_isDigit (hws c List.mem_cons_self) rfl
    exact (number?_unsigned hminus _).trans hunsigned

end Json.Document

/-! ## Floating-point numbers -/

/-- **The text of a floating-point number is read as the number that its digits show.** -/
theorem Binary64.number?_text (x : Binary64) : ∃ l : Json.Literal,
    Json.Document.number? (x.text .json).toList = some (l, []) ∧ l.value = x.written := by
  by_cases hzero : x.isZero = true
  · obtain ⟨htext, hvalue⟩ := text_zero hzero
    obtain ⟨l, hl, hbase, hnone⟩ := Json.Document.number?_plain x.negative
      (List.cons_ne_nil _ _) Text.isDigit_of_mem_zero (fun _ => rfl) Text.isDigit_of_mem_zero .none
    rw [List.append_nil, ← htext] at hl
    exact ⟨l, hl, by rw [l.value_of_plain hnone, hbase, hvalue]⟩
  by_cases hpoint : Layout.json.positional x.point = true
  · obtain ⟨n, fs, hfs, htext, hvalue⟩ := text_positional hzero hpoint
    have hlead : (Nat.toDigits 10 n).head? = some '0' → Nat.toDigits 10 n = ['0'] := by
      intro hhead
      rw [Text.eq_zero_of_head_toDigits hhead]
      rfl
    obtain ⟨l, hl, hbase, hnone⟩ := Json.Document.number?_plain x.negative Nat.toDigits_ne_nil
      Text.isDigit_of_mem_toDigits hlead hfs .none
    rw [List.append_nil, ← htext] at hl
    exact ⟨l, hl, by rw [l.value_of_plain hnone, hbase, hvalue]⟩
  · obtain ⟨w, fs, cs, down, hw, hfs, hcs, hcdigits, htext, hdigits, -, hpower⟩ :=
      text_scientific hzero hpoint
    have hws : ∀ c ∈ [w], c.isDigit = true := by simpa using hw
    obtain ⟨l, hl, hbase, hexponent⟩ := Json.Document.number?_plain x.negative
      (List.cons_ne_nil _ _) hws (fun hhead => congrArg (fun c => [c]) (Option.some.inj hhead)) hfs
      (.some (.inl rfl) down (!down) hcs hcdigits)
    rw [← htext] at hl
    refine ⟨l, hl, ?_⟩
    rw [l.value_of_exponent hexponent, hbase, plainValue, hdigits]
    exact moved_eq_written hzero hpower

namespace Json.Document

/-! ## Values -/

theorem ends_comma (rest : List Char) : Ends (',' :: rest) := ⟨rfl, rfl, rfl⟩

/-- The value is read from the text, whatever follows it. -/
def Spells (text : String) (n : Node) : Prop :=
  ∀ fuel tail, Ends tail → value (fuel + 1) (text.toList ++ tail) = (n, some tail)

theorem spells_bool (b : Bool) : Spells (if b then "true" else "false") (.bool b) := by
  intro fuel tail _
  refine value_eq_some_iff.mpr ?_
  cases b with
  | true => exact .yes rfl
  | false => exact .no rfl

theorem spells_string (s : String) : Spells (stringText s) (.string (some s)) := by
  intro fuel tail _
  refine value_eq_some_iff.mpr (.string ?_ (string?_stringText s tail))
  rw [stringText, String.toList_ofList, List.cons_append, List.cons_append, List.append_assoc]
  rfl

theorem not_blank_of_startsNumber {c : Char} (h : startsNumber c = true) : isBlank c = false := by
  rw [Bool.eq_false_iff]
  intro hblank
  simp only [isBlank, Bool.or_eq_true, beq_iff_eq] at hblank
  rcases hblank with ((rfl | rfl) | rfl) | rfl <;> cases h

theorem spells_number {text : String} {l : Literal} (h : number? text.toList = some (l, [])) :
    Spells text (.number l) := by
  intro fuel tail htail
  obtain ⟨c, r, hstart, hc⟩ := startsNumber_of_number? h
  have hskip : skipBlanks (text.toList ++ tail) = text.toList ++ tail := by
    rw [hstart]
    exact skipBlanks_cons (not_blank_of_startsNumber hc) _
  refine value_eq_some_iff.mpr (.number ?_)
  rw [hskip]
  exact number?_continues htail h

/-! ## Objects -/

/-- The text of a member. -/
def memberText (m : String × String) : List Char := (stringText m.1 ++ ":" ++ m.2).toList

theorem memberText_eq (m : String × String) : memberText m =
    '"' :: (m.1.toList.flatMap stringChar ++ '"' :: ':' :: m.2.toList) := by
  simp [memberText, stringText]

/-- The key is the text that has been written, and the value is read from the text of the value. -/
def SpellsMember (m : String × String) (n : Chars × Node) : Prop :=
  n.1 = some m.1 ∧ Spells m.2 n.2

/-- One member, up to what ends it. -/
theorem SpellsMember.reads {m : String × String} {n : Chars × Node} (h : SpellsMember m n)
    {fuel : Nat} (hfuel : 0 < fuel) {behind : List Char} (hbehind : Ends behind) :
    ∃ text r content, skipBlanks (memberText m ++ behind) = '"' :: text ∧
      string? text = some (n.1, r) ∧ skipBlanks r = ':' :: content ∧
      value fuel content = (n.2, some behind) := by
  obtain ⟨hkey, hvalue⟩ := h
  obtain ⟨fuel, rfl⟩ := Nat.exists_eq_add_one_of_ne_zero (Nat.ne_of_gt hfuel)
  refine ⟨m.1.toList.flatMap stringChar ++ '"' :: ':' :: (m.2.toList ++ behind),
    ':' :: (m.2.toList ++ behind), m.2.toList ++ behind, ?_, ?_, skipBlanks_cons rfl _,
    hvalue fuel behind hbehind⟩
  · rw [memberText_eq, List.cons_append, skipBlanks_cons rfl]
    simp
  · rw [string?_stringText, hkey]

/-- Members that are spelled out are read one after another. -/
theorem members_of_spells {m : String × String} {ms : List (String × String)}
    {ns : List (Chars × Node)} (h : List.Forall₂ SpellsMember (m :: ms) ns) {fuel : Nat}
    (hfuel : ms.length < fuel) (rest : List Char) :
    members (fuel + 1) ([','].intercalate ((m :: ms).map memberText) ++ '\x7d' :: rest) =
      (ns, some rest) := by
  induction ms generalizing m ns fuel with
  | nil =>
    cases h with
    | cons hm hnil =>
      cases hnil
      obtain ⟨text, r, content, hquote, hstring, hcolon, hvalue⟩ := hm.reads hfuel (ends_brace rest)
      rw [List.map_singleton, List.intercalate_singleton]
      exact members_eq_some_iff.mpr
        ⟨text, _, r, content, _, _, hquote, hstring, hcolon, hvalue,
          .inl ⟨skipBlanks_cons rfl rest, rfl⟩⟩
  | cons m' ms ih =>
    cases h with
    | cons hm hrest =>
      have hpos := Nat.zero_lt_of_lt hfuel
      rw [List.length_cons] at hfuel
      have hnext := ih hrest (show ms.length < fuel - 1 by omega)
      rw [Nat.sub_add_cancel hpos] at hnext
      have hsplit : [','].intercalate ((m :: m' :: ms).map memberText) ++ '\x7d' :: rest =
          memberText m ++
            ',' :: ([','].intercalate ((m' :: ms).map memberText) ++ '\x7d' :: rest) := by
        rw [List.map_cons, List.map_cons, List.intercalate_cons_cons]
        simp
      obtain ⟨text, r, content, hquote, hstring, hcolon, hvalue⟩ := hm.reads hpos (ends_comma _)
      rw [hsplit]
      exact members_eq_some_iff.mpr
        ⟨text, _, r, content, _, _, hquote, hstring, hcolon, hvalue,
          .inr ⟨_, _, skipBlanks_cons rfl _, hnext, rfl⟩⟩

/-- What stands between the braces starts with a quote and is as long as there are members. -/
theorem intercalate_memberText (m : String × String) (ms : List (String × String)) :
    ∃ first, [','].intercalate ((m :: ms).map memberText) = '"' :: first ∧
      ms.length ≤ first.length := by
  induction ms generalizing m with
  | nil =>
    rw [List.map_singleton, List.intercalate_singleton]
    exact ⟨_, memberText_eq m, Nat.zero_le _⟩
  | cons m' ms ih =>
    obtain ⟨first, hfirst, hlength⟩ := ih m'
    rw [List.map_cons] at hfirst
    refine ⟨m.1.toList.flatMap stringChar ++ '"' :: ':' :: m.2.toList ++ [','] ++ '"' :: first, ?_, ?_⟩
    · rw [List.map_cons, List.map_cons, List.intercalate_cons_cons, hfirst, memberText_eq m]
      rfl
    · rw [List.length_append, List.length_cons, List.length_cons]
      omega

/-- **An object is read as it has been written.** -/
theorem read_objectText {m : String × String} {ms : List (String × String)}
    {ns : List (Chars × Node)} (h : List.Forall₂ SpellsMember (m :: ms) ns) :
    read (objectText (m :: ms)) = (.object ns, true) := by
  obtain ⟨first, hfirst, hlength⟩ := intercalate_memberText m ms
  have htext : (objectText (m :: ms)).toList = '\x7b' :: '"' :: (first ++ ['\x7d']) := by
    rw [← List.cons_append, ← hfirst]
    simp only [objectText, bracketed, String.toList_append, String.toList_intercalate, List.map_map]
    rfl
  refine read_eq_iff.mpr ⟨[], value_eq_some_iff.mpr ?_, rfl⟩
  rw [htext]
  refine .members (skipBlanks_cons rfl _) (skipBlanks_cons rfl _) (by decide) ?_
  have hfuel : ms.length < 2 * (first.length + 3) := by omega
  have hmembers := members_of_spells h hfuel []
  rw [hfirst, List.cons_append] at hmembers
  simpa using hmembers

end Json.Document

end SpotGateway
