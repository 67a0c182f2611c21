import SpotGateway.Keyed

/-!
# Keyed entries whose keys are apart

Entries that are added through `Keyed.set` keep their keys apart.  Then lookup tells which entries
there are, and an entry more or less is one more or less to count.

* `Keyed.Apart`, `Apart.set`, `Apart.erase` — no key occurs twice;
* `Apart.get?_eq_some_iff` — lookup and membership agree;
* `Keyed.foldl_set_of_nodup` — entries that are put in one after another;
* `Keyed.ext_of_keys` — entries with the same keys in the same places and the same lookup are the same;
* `Keyed.mapValues`, `Keyed.set_eq_mapValues` — every value replaced by one made from it;
* `Keyed.length_set_of_some`, `Keyed.length_set_of_none`, `Apart.length_erase` — how many entries
  there are.
-/

set_option autoImplicit false

namespace SpotGateway.Keyed

variable {α : Type} {m : Keyed α} {key other : String} {value : α}

theorem get?_set (m : Keyed α) (key other : String) (value : α) :
    (m.set key value).get? other = if other = key then some value else m.get? other := by
  split
  · rename_i h
    rw [h, get?_set_self]
  · rename_i h
    rw [get?_set_other m value h]

theorem get?_erase (m : Keyed α) (key other : String) :
    (m.erase key).get? other = if other = key then none else m.get? other := by
  split
  · rename_i h
    rw [h, get?_erase_self]
  · rename_i h
    rw [get?_erase_other m h]

theorem mem_of_get?_eq_some (h : m.get? key = some value) : (key, value) ∈ m := by
  induction m with
  | nil => cases h
  | cons e rest ih =>
    obtain ⟨k, a⟩ := e
    by_cases hk : k = key
    · simp only [get?, hk, if_true, Option.some.injEq] at h
      rw [hk, h]
      exact List.mem_cons_self
    · simp only [get?, hk, if_false] at h
      exact List.mem_cons_of_mem _ (ih h)

theorem get?_eq_none_iff : m.get? key = none ↔ key ∉ m.keys := by
  induction m with
  | nil => simp [get?, keys]
  | cons e rest ih =>
    obtain ⟨k, a⟩ := e
    by_cases hk : k = key
    · simp [get?, keys, hk]
    · simp only [get?, hk, if_false, ih]
      simp [keys, Ne.symm hk]

/-- Putting a value where it is already changes nothing. -/
theorem set_of_get?_eq_some (h : m.get? key = some value) : m.set key value = m := by
  induction m with
  | nil => cases h
  | cons e rest ih =>
    obtain ⟨k, a⟩ := e
    by_cases hk : k = key
    · simp only [get?, hk, if_true, Option.some.injEq] at h
      simp [set, hk, h]
    · simp only [get?, hk, if_false] at h
      simp only [set, hk, if_false, ih h]

/-! ## How many entries there are -/

theorem keys_set_of_some {present : α} (h : m.get? key = some present) :
    (m.set key value).keys = m.keys := by
  induction m with
  | nil => cases h
  | cons e rest ih =>
    obtain ⟨k, a⟩ := e
    by_cases hk : k = key
    · simp [set, keys, hk]
    · simp only [get?, hk, if_false] at h
      have hrest := ih h
      simp only [keys] at hrest
      simp [set, keys, hk, hrest]

/-- A value under a new key comes last. -/
theorem set_of_get?_eq_none (h : m.get? key = none) : m.set key value = m ++ [(key, value)] := by
  induction m with
  | nil => rfl
  | cons e rest ih =>
    obtain ⟨k, a⟩ := e
    by_cases hk : k = key
    · simp [get?, hk] at h
    · simp only [get?, hk, if_false] at h
      simp only [set, hk, if_false, ih h, List.cons_append]

theorem keys_set_of_none (h : m.get? key = none) : (m.set key value).keys = m.keys ++ [key] := by
  rw [set_of_get?_eq_none h, keys, List.map_append]
  rfl

theorem length_keys (m : Keyed α) : m.keys.length = m.length := List.length_map _

theorem length_set_of_some {present : α} (h : m.get? key = some present) :
    (m.set key value).length = m.length := by
  rw [← length_keys, keys_set_of_some h, length_keys]

theorem length_set_of_none (h : m.get? key = none) :
    (m.set key value).length = m.length + 1 := by
  rw [← length_keys, keys_set_of_none h, List.length_append, length_keys, List.length_singleton]

/-! ## Keys that are apart -/

/-- No key occurs twice. -/
def Apart (m : Keyed α) : Prop := m.keys.Nodup

theorem apart_nil : Apart ([] : Keyed α) := List.nodup_nil

theorem Apart.set (h : m.Apart) (key : String) (value : α) : (m.set key value).Apart := by
  unfold Apart
  cases hkey : m.get? key with
  | some present =>
    rw [keys_set_of_some hkey]
    exact h
  | none =>
    rw [keys_set_of_none hkey, List.nodup_append]
    refine ⟨h, by simp, ?_⟩
    intro a ha b hb
    rw [List.mem_singleton] at hb
    rintro rfl
    exact get?_eq_none_iff.mp hkey (hb ▸ ha)

theorem Apart.erase (h : m.Apart) (key : String) : (m.erase key).Apart :=
  (List.Sublist.map Prod.fst List.filter_sublist).nodup h

theorem Apart.get?_eq_some_iff (h : m.Apart) : m.get? key = some value ↔ (key, value) ∈ m := by
  refine ⟨mem_of_get?_eq_some, ?_⟩
  intro hmem
  induction m with
  | nil => cases hmem
  | cons e rest ih =>
    obtain ⟨k, a⟩ := e
    obtain ⟨hnot, hrest⟩ := List.nodup_cons.mp (show (k :: rest.map Prod.fst).Nodup from h)
    rcases List.mem_cons.mp hmem with heq | hmem
    · cases heq
      simp [get?]
    · have hk : k ≠ key := fun heq => hnot (heq ▸ List.mem_map_of_mem hmem)
      simp only [get?, hk, if_false]
      exact ih hrest hmem

theorem Apart.mem_values_iff (h : m.Apart) : value ∈ m.values ↔ ∃ key, m.get? key = some value := by
  simp only [values, List.mem_map, h.get?_eq_some_iff]
  constructor
  · rintro ⟨⟨key, a⟩, hmem, rfl⟩
    exact ⟨key, hmem⟩
  · rintro ⟨key, hmem⟩
    exact ⟨(key, value), hmem, rfl⟩

/-- Values put under new keys one after another come last, in that order. -/
theorem foldl_set_of_nodup {β : Type} (name : β → String) (content : β → α) {xs : List β}
    (h : (m.keys ++ xs.map name).Nodup) :
    xs.foldl (fun m x => m.set (name x) (content x)) m =
      m ++ xs.map fun x => (name x, content x) := by
  induction xs generalizing m with
  | nil => simp
  | cons x rest ih =>
    have hnew : m.get? (name x) = none := by
      rw [get?_eq_none_iff]
      intro hmem
      exact (List.nodup_append.mp h).2.2 _ hmem _ List.mem_cons_self rfl
    have hrest : ((m.set (name x) (content x)).keys ++ rest.map name).Nodup := by
      rw [keys_set_of_none hnew, List.append_assoc]
      exact h
    rw [List.foldl_cons, ih hrest, set_of_get?_eq_none hnew, List.append_assoc]
    rfl

theorem erase_of_not_mem (h : key ∉ m.keys) : m.erase key = m := by
  unfold erase
  rw [List.filter_eq_self]
  intro e he
  have : e.1 ≠ key := fun heq => h (heq ▸ List.mem_map_of_mem he)
  simpa using this

/-- Taking an entry out that is there makes one entry less. -/
theorem Apart.length_erase (h : m.Apart) (hkey : m.get? key = some value) :
    (m.erase key).length + 1 = m.length := by
  induction m with
  | nil => cases hkey
  | cons e rest ih =>
    obtain ⟨k, a⟩ := e
    obtain ⟨hnot, hrest⟩ := List.nodup_cons.mp (show (k :: rest.map Prod.fst).Nodup from h)
    by_cases hk : k = key
    · have hhead : Keyed.erase ((k, a) :: rest) key = Keyed.erase rest key := by
        simp [Keyed.erase, hk]
      rw [hhead, erase_of_not_mem (hk ▸ hnot), List.length_cons]
    · have hhead : Keyed.erase ((k, a) :: rest) key = (k, a) :: Keyed.erase rest key := by
        simp [Keyed.erase, hk]
      simp only [get?, hk, if_false] at hkey
      rw [hhead, List.length_cons, List.length_cons, ih hrest hkey]

/-- Keys in the same places and lookup tell all there is. -/
theorem ext_of_keys {m' : Keyed α} (h : m.Apart) (hkeys : m'.keys = m.keys)
    (hget : ∀ key, m'.get? key = m.get? key) : m' = m := by
  induction m generalizing m' with
  | nil => exact List.map_eq_nil_iff.mp hkeys
  | cons e rest ih =>
    obtain ⟨k, a⟩ := e
    obtain ⟨hnot, hrest⟩ := List.nodup_cons.mp (show (k :: rest.map Prod.fst).Nodup from h)
    obtain ⟨⟨k', a'⟩, rest', rfl, hk, hkeys'⟩ := List.map_eq_cons_iff.mp hkeys
    have hk : k' = k := hk
    subst hk
    have ha : a' = a := by simpa [get?] using hget k'
    have hsame : rest' = rest := by
      refine ih hrest hkeys' fun key => ?_
      by_cases heq : k' = key
      · -- neither of the two has the first key once more
        subst heq
        have hnot' : k' ∉ keys rest' := by
          rw [keys, hkeys']
          exact hnot
        rw [get?_eq_none_iff.mpr hnot, get?_eq_none_iff.mpr hnot']
      · simpa [get?, heq] using hget key
    rw [ha, hsame]

/-! ## Values one by one -/

variable {β : Type} (f : α → β)

/-- The same keys, with values made from those there were. -/
def mapValues (m : Keyed α) : Keyed β := m.map fun e => (e.1, f e.2)

theorem get?_mapValues (m : Keyed α) (key : String) :
    (m.mapValues f).get? key = (m.get? key).map f := by
  induction m with
  | nil => rfl
  | cons e rest ih =>
    obtain ⟨k, a⟩ := e
    by_cases h : k = key
    · simp [mapValues, get?, h]
    · simpa [mapValues, get?, h] using ih

theorem mapValues_set (m : Keyed α) (key : String) (value : α) :
    (m.set key value).mapValues f = (m.mapValues f).set key (f value) := by
  induction m with
  | nil => rfl
  | cons e rest ih =>
    obtain ⟨k, a⟩ := e
    by_cases h : k = key
    · simp [mapValues, set, h]
    · simpa [mapValues, set, h] using ih

theorem keys_mapValues (m : Keyed α) : (m.mapValues f).keys = m.keys := by
  simp only [keys, mapValues, List.map_map]
  rfl

theorem mapValues_mapValues {γ : Type} (g : β → γ) (m : Keyed α) :
    (m.mapValues f).mapValues g = m.mapValues (g ∘ f) := by
  simp only [mapValues, List.map_map]
  rfl

/-- Where every value is replaced by itself nothing changes. -/
theorem Apart.mapValues_eq_self {f : α → α} (h : m.Apart)
    (hsame : ∀ key a, m.get? key = some a → f a = a) : m.mapValues f = m := by
  refine ext_of_keys h (keys_mapValues f m) fun key => ?_
  rw [get?_mapValues]
  cases hget : m.get? key with
  | none => rfl
  | some a => rw [Option.map_some, hsame key a hget]

/-- Where only the value under one key is replaced by another, that one is put in its place. -/
theorem set_eq_mapValues {f : α → α} (h : m.Apart) (hkey : m.get? key = some value)
    (hother : ∀ other a, other ≠ key → m.get? other = some a → f a = a) :
    m.set key (f value) = m.mapValues f := by
  have hkeys : (m.set key (f value)).keys = (m.mapValues f).keys := by
    rw [keys_set_of_some hkey, keys_mapValues]
  have hapart : (m.mapValues f).Apart := by
    rw [Apart, keys_mapValues]
    exact h
  refine ext_of_keys hapart hkeys fun other => ?_
  rw [get?_set, get?_mapValues]
  split
  · rename_i heq
    rw [heq, hkey, Option.map_some]
  · rename_i hne
    cases hget : m.get? other with
    | none => rfl
    | some a => rw [Option.map_some, hother other a hne hget]

theorem mapValues_erase (m : Keyed α) (key : String) :
    (m.erase key).mapValues f = (m.mapValues f).erase key := by
  simp only [mapValues, erase, List.filter_map]
  rfl

end SpotGateway.Keyed
