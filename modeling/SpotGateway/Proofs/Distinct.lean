/-!
# Names that occur once

Entries that are told apart by a name, as listings are by their pair or their symbol.

* `find?_name_eq_some_iff`, `find?_name_eq_none_iff`, `find?_name_eq_of_perm`, `filter_name_eq` —
  what is found under a name;
* `pairwise_lt_mergeSort` — sorted by name, each entry comes after the ones before it.
-/

set_option autoImplicit false

namespace SpotGateway

variable {α : Type} {name : α → String} {xs : List α} {key : String} {a : α}

theorem find?_name_eq_none_iff : (xs.find? fun x => name x = key) = none ↔ key ∉ xs.map name := by
  simp [List.find?_eq_none]

/-- Where no name occurs twice, to be found under a name is to be there and to have it. -/
theorem find?_name_eq_some_iff (h : (xs.map name).Nodup) :
    (xs.find? fun x => name x = key) = some a ↔ a ∈ xs ∧ name a = key := by
  induction xs with
  | nil => simp
  | cons x rest ih =>
    obtain ⟨hnot, hrest⟩ := List.nodup_cons.mp (List.map_cons ▸ h)
    by_cases hx : name x = key
    · rw [List.find?_cons_of_pos (by simpa using hx)]
      constructor
      · intro heq
        cases heq
        exact ⟨List.mem_cons_self, hx⟩
      · rintro ⟨hmem, ha⟩
        rcases List.mem_cons.mp hmem with rfl | hmem
        · rfl
        · have hsame : name x ∈ rest.map name := by
            rw [hx, ← ha]
            exact List.mem_map_of_mem hmem
          exact absurd hsame hnot
    · rw [List.find?_cons_of_neg (by simpa using hx), ih hrest]
      constructor
      · exact fun ⟨hmem, ha⟩ => ⟨List.mem_cons_of_mem _ hmem, ha⟩
      · rintro ⟨hmem, ha⟩
        rcases List.mem_cons.mp hmem with rfl | hmem
        · exact absurd ha hx
        · exact ⟨hmem, ha⟩

/-- Where no name occurs twice, what is found under a name does not depend on the order. -/
theorem find?_name_eq_of_perm {ys : List α} (h : (xs.map name).Nodup) (hperm : xs.Perm ys)
    (key : String) : (xs.find? fun x => name x = key) = ys.find? fun x => name x = key := by
  have hys : (ys.map name).Nodup := (hperm.map name).nodup_iff.mp h
  refine Option.ext fun a => ?_
  rw [find?_name_eq_some_iff h, find?_name_eq_some_iff hys, hperm.mem_iff]

/-- Where no name occurs twice, an entry is the only one of its name. -/
theorem filter_name_eq (h : (xs.map name).Nodup) (ha : a ∈ xs) :
    xs.filter (fun x => name x = name a) = [a] := by
  induction xs with
  | nil => cases ha
  | cons x rest ih =>
    obtain ⟨hnot, hrest⟩ := List.nodup_cons.mp (List.map_cons ▸ h)
    rcases List.mem_cons.mp ha with rfl | ha
    · have hnone : rest.filter (fun x => name x = name a) = [] := by
        refine List.filter_eq_nil_iff.mpr fun y hy hsame => hnot ?_
        exact of_decide_eq_true hsame ▸ List.mem_map_of_mem hy
      rw [List.filter_cons_of_pos (by simp), hnone]
    · have hx : name x ≠ name a := fun hsame => hnot (hsame ▸ List.mem_map_of_mem ha)
      rw [List.filter_cons_of_neg (by simpa using hx), ih hrest ha]

/-- Sorting keeps the names, and names that differ are sorted strictly. -/
theorem pairwise_lt_mergeSort (h : (xs.map name).Nodup) :
    (xs.mergeSort fun a b => decide (name a ≤ name b)).Pairwise fun a b => name a < name b := by
  have hsorted : (xs.mergeSort fun a b => decide (name a ≤ name b)).Pairwise
      fun a b => decide (name a ≤ name b) = true := List.pairwise_mergeSort
    (fun a b c hab hbc => by
      rw [decide_eq_true_iff] at hab hbc ⊢
      exact String.le_trans hab hbc)
    (fun a b => by simpa using String.le_total (name a) (name b)) xs
  have hperm := (List.mergeSort_perm xs fun a b => decide (name a ≤ name b)).map name
  have hdistinct := hperm.nodup_iff.mpr h
  rw [List.Nodup, List.pairwise_map] at hdistinct
  refine (hsorted.and hdistinct).imp ?_
  rintro a b ⟨hle, hne⟩
  exact String.not_le.mp fun hge => hne (String.le_antisymm (of_decide_eq_true hle) hge)

end SpotGateway
