import SpotGateway.Text.CaseTable

/-!
# Lower case

Full Unicode lower-casing, as stream channel names need it.  A capital sigma becomes the final form
at the end of a word, and the dotted capital I becomes two characters.

* `lowerChar` — the lower case form of a character away from any context;
* `endsWord` — the context in which a sigma is final;
* `lowerCase` — the lower case form of a text.
-/

set_option autoImplicit false

namespace SpotGateway.Text

/-- Whether `n` is in one of the inclusive ranges. -/
def inRanges (ranges : List (Nat × Nat)) (n : Nat) : Bool :=
  ranges.any fun r => r.1 ≤ n && n ≤ r.2

/-- The lower case form of a character: itself when it has no other. -/
def lowerChar (c : Char) : List Char :=
  if c = 'İ' then ['i', '\u0307']
  else
    match CaseTable.lower.find? fun r =>
      r.1 ≤ c.toNat && c.toNat ≤ r.2.1 && (c.toNat - r.1) % r.2.2.1 == 0 with
    | some r => [Char.ofNat (c.toNat + r.2.2.2).toNat]
    | none => [c]

/-- Whether the first character that is not case-ignorable has case. -/
def meetsCased (cs : List Char) : Bool :=
  match cs.dropWhile fun c => inRanges CaseTable.ignorable c.toNat with
  | [] => false
  | c :: _ => inRanges CaseTable.cased c.toNat

/-- A word ends here: a cased character comes before and none after.  `before` runs backwards. -/
def endsWord (before after : List Char) : Bool := meetsCased before && !meetsCased after

/-- Lower-case `cs`, which follows the reversed text `before`. -/
def lowerFrom (before : List Char) : List Char → List Char
  | [] => []
  | c :: cs =>
    let here := if c = 'Σ' then [if endsWord before cs then 'ς' else 'σ'] else lowerChar c
    here ++ lowerFrom (c :: before) cs

def lowerCase (s : String) : String := String.ofList (lowerFrom [] s.toList)

end SpotGateway.Text
