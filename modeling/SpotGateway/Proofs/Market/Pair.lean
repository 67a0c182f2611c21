import Mathlib.Data.List.TakeWhile
import SpotGateway.Market.Pair

/-!
# Pairs and their assets

A pair is taken apart exactly if it is made of two names that are not empty and have no separator in
them.  Any two names can be put together, though, and two pairs of names give one text exactly if they
are the same or differ in which separator divides it.

* `Pair.IsAsset` — names that a pair can be taken apart into;
* `Pair.split?_eq_some_iff`, `Pair.split?_combine_iff` — which pairs are taken apart, and how;
* `Pair.combine_eq_combine_iff` — which names give one text.
-/

set_option autoImplicit false

namespace SpotGateway.Pair

/-- The name is not empty and has no separator in it. -/
def IsAsset (name : String) : Prop := name ≠ "" ∧ separator ∉ name.toList

instance (name : String) : Decidable (IsAsset name) := inferInstanceAs (Decidable (_ ∧ _))

variable {base quote base' quote' pair : String}

theorem toList_combine (base quote : String) :
    (combine base quote).toList = base.toList ++ separator :: quote.toList := by
  simp [combine]

theorem toList_ne_nil_iff {name : String} : name.toList ≠ [] ↔ name ≠ "" := by
  rw [Ne, String.toList_eq_nil_iff]

/-- The first separator divides the text of a pair if there is none in the base. -/
theorem takeWhile_combine (h : separator ∉ base.toList) (quote : String) :
    (combine base quote).toList.takeWhile (· ≠ separator) = base.toList ∧
      (combine base quote).toList.dropWhile (· ≠ separator) = separator :: quote.toList := by
  have hbase : ∀ c ∈ base.toList, decide (c ≠ separator) = true := by
    intro c hc
    rw [decide_eq_true_eq]
    rintro rfl
    exact h hc
  rw [toList_combine, List.takeWhile_append_of_pos hbase, List.dropWhile_append_of_pos hbase]
  simp

/-- **A pair is taken apart exactly into the two assets that it is made of.** -/
theorem split?_eq_some_iff :
    split? pair = some (base, quote) ↔ IsAsset base ∧ IsAsset quote ∧ pair = combine base quote := by
  constructor
  · intro h
    unfold split? at h
    split at h
    · cases h
    · rename_i c rest hdrop
      simp only [Option.ite_none_left_eq_some, not_or, Option.some.injEq, Prod.mk.injEq] at h
      obtain ⟨⟨hbase, hquote, hrest⟩, rfl, rfl⟩ := h
      have hc : c = separator := by
        have hhead := List.head?_dropWhile_not (· ≠ separator) pair.toList
        rw [hdrop] at hhead
        simpa using hhead
      subst hc
      have hfree : separator ∉ pair.toList.takeWhile (· ≠ separator) := by
        intro hmem
        have := List.mem_takeWhile_imp hmem
        simp at this
      refine ⟨⟨toList_ne_nil_iff.mp (by simpa using hbase), by simpa using hfree⟩,
        ⟨toList_ne_nil_iff.mp (by simpa using hquote), by simpa using hrest⟩, ?_⟩
      apply String.toList_injective
      rw [toList_combine, String.toList_ofList, String.toList_ofList, ← hdrop,
        List.takeWhile_append_dropWhile]
  · rintro ⟨hbase, hquote, rfl⟩
    obtain ⟨htake, hdrop⟩ := takeWhile_combine hbase.2 quote
    have hne : ¬ (base.toList = [] ∨ quote.toList = [] ∨ separator ∈ quote.toList) := by
      rintro (h | h | h)
      · exact toList_ne_nil_iff.mpr hbase.1 h
      · exact toList_ne_nil_iff.mpr hquote.1 h
      · exact hquote.2 h
    simp only [split?, htake, hdrop, hne, if_false, String.ofList_toList]

theorem split?_combine_iff :
    split? (combine base quote) = some (base, quote) ↔ IsAsset base ∧ IsAsset quote := by
  rw [split?_eq_some_iff]
  exact ⟨fun h => ⟨h.1, h.2.1⟩, fun h => ⟨h.1, h.2, rfl⟩⟩

/-- Two pairs of names give one text exactly if they are the same, or one separator in it divides the
one pair and another the other. -/
theorem combine_eq_combine_iff : combine base quote = combine base' quote' ↔
    base = base' ∧ quote = quote' ∨
      ∃ middle, base' = combine base middle ∧ quote = combine middle quote' ∨
        base = combine base' middle ∧ quote' = combine middle quote := by
  simp only [← String.toList_inj, toList_combine]
  constructor
  · intro h
    rcases List.append_eq_append_iff.mp h with ⟨as, hbase, hquote⟩ | ⟨as, hbase, hquote⟩
    · cases as with
      | nil =>
        simp only [List.append_nil, List.nil_append, List.cons.injEq] at hbase hquote
        exact .inl ⟨hbase.symm, hquote.2⟩
      | cons c middle =>
        rw [List.cons_append, List.cons.injEq] at hquote
        obtain ⟨rfl, hquote⟩ := hquote
        exact .inr ⟨String.ofList middle, .inl ⟨by simpa using hbase, by simpa using hquote⟩⟩
    · cases as with
      | nil =>
        simp only [List.append_nil, List.nil_append, List.cons.injEq] at hbase hquote
        exact .inl ⟨hbase, hquote.2.symm⟩
      | cons c middle =>
        rw [List.cons_append, List.cons.injEq] at hquote
        obtain ⟨rfl, hquote⟩ := hquote
        exact .inr ⟨String.ofList middle, .inr ⟨by simpa using hbase, by simpa using hquote⟩⟩
  · rintro (⟨hbase, hquote⟩ | ⟨middle, ⟨hbase, hquote⟩ | ⟨hbase, hquote⟩⟩)
    · rw [hbase, hquote]
    · simp [hbase, hquote]
    · simp [hbase, hquote]

end SpotGateway.Pair
