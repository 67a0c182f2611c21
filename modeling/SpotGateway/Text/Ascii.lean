/-!
# ASCII letters and digits

The checks on names and identifiers that look at ASCII only, as their rules are written.

* `sameIgnoringCase` — equality up to the case of ASCII letters;
* `isAlphanumeric` — ASCII letters and digits.
-/

set_option autoImplicit false

namespace SpotGateway.Text

/-- Equality up to the case of ASCII letters. -/
def sameIgnoringCase (a b : String) : Bool :=
  a.toList.map Char.toLower == b.toList.map Char.toLower

theorem sameIgnoringCase_iff {a b : String} :
    sameIgnoringCase a b = true ↔ a.toList.map Char.toLower = b.toList.map Char.toLower := by
  simp [sameIgnoringCase]

theorem sameIgnoringCase_refl (a : String) : sameIgnoringCase a a = true := by
  simp [sameIgnoringCase]

/-- An ASCII letter or digit. -/
def isAlphanumeric (c : Char) : Bool :=
  ('0' ≤ c && c ≤ '9') || ('a' ≤ c && c ≤ 'z') || ('A' ≤ c && c ≤ 'Z')

end SpotGateway.Text
