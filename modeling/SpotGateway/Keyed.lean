/-!
# Keyed entries

A finite map from text keys, kept as a list in order of first insertion.  Every key occurs at most
once as long as entries are added through `set`.

* `Keyed.get?`, `Keyed.contains` — lookup;
* `Keyed.set` — add or replace in place;
* `Keyed.erase` — remove;
* `get?_set_self`, `get?_set_other`, `get?_erase_self`, `get?_erase_other` — what each operation
  does to lookup.
-/

set_option autoImplicit false

namespace SpotGateway

/-- Entries `(key, value)` in order of first insertion. -/
abbrev Keyed (α : Type) := List (String × α)

namespace Keyed

variable {α : Type}

/-- The value under `key`. -/
def get? : Keyed α → String → Option α
  | [], _ => none
  | (k, a) :: rest, key => if k = key then some a else get? rest key

def contains (m : Keyed α) (key : String) : Bool := (m.get? key).isSome

/-- Put `value` under `key`: in the place of its present entry, or at the end. -/
def set : Keyed α → String → α → Keyed α
  | [], key, value => [(key, value)]
  | (k, a) :: rest, key, value =>
    if k = key then (k, value) :: rest else (k, a) :: set rest key value

/-- Take the entry of `key` out. -/
def erase (m : Keyed α) (key : String) : Keyed α := m.filter fun e => e.1 ≠ key

def keys (m : Keyed α) : List String := m.map Prod.fst

def values (m : Keyed α) : List α := m.map Prod.snd

theorem get?_set_self (m : Keyed α) (key : String) (value : α) :
    (m.set key value).get? key = some value := by
  induction m with
  | nil => simp [set, get?]
  | cons e rest ih =>
    obtain ⟨k, a⟩ := e
    by_cases h : k = key <;> simp [set, get?, h, ih]

theorem get?_set_other (m : Keyed α) {key other : String} (value : α) (h : other ≠ key) :
    (m.set key value).get? other = m.get? other := by
  induction m with
  | nil => simp [set, get?, Ne.symm h]
  | cons e rest ih =>
    obtain ⟨k, a⟩ := e
    by_cases hk : k = key
    · subst hk
      simp [set, get?, Ne.symm h]
    · simp only [set, hk, if_false, get?, ih]

theorem get?_erase_self (m : Keyed α) (key : String) : (m.erase key).get? key = none := by
  induction m with
  | nil => rfl
  | cons e rest ih =>
    obtain ⟨k, a⟩ := e
    by_cases h : k = key
    · simpa [erase, h] using ih
    · simp only [erase, List.filter_cons, ne_eq, h, not_false_eq_true, decide_true, if_true, get?,
        if_false]
      exact ih

theorem get?_erase_other (m : Keyed α) {key other : String} (h : other ≠ key) :
    (m.erase key).get? other = m.get? other := by
  induction m with
  | nil => rfl
  | cons e rest ih =>
    obtain ⟨k, a⟩ := e
    by_cases hk : k = key
    · subst hk
      simpa [erase, get?, Ne.symm h] using ih
    · simp only [erase, List.filter_cons, ne_eq, hk, not_false_eq_true, decide_true, if_true, get?]
      split
      · rfl
      · exact ih

end Keyed

end SpotGateway
