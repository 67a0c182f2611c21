import Mathlib.Algebra.Order.BigOperators.Group.List
import Mathlib.Algebra.Order.Ring.Nat
import Mathlib.Data.List.Sort
import SpotGateway.Proofs.RateLimit.Declared

/-!
# Regular tables

What the limiter relies on in a table of tiers.

* `Table.nodup_unitsTaken`, `Table.pairwise_inOrder` — links are added up by tier, so that the
  charges of a tier can be put into strict order;
* `Table.inOrder_eq_of_perm` — there is one such order, however the charges were found;
* `Table.Regular` — windows have a length, and no reservation charges a tier twice;
* `Table.exists_resolve_of_build`, `Table.regular_of_build` — tables that are accepted are made of
  declared tiers, and regular;
* `Table.nodup_ids_of_build`, `Table.position_lt_of_build` — their tiers have names of their own,
  and charges are made on tiers of the table;
* `unitsAt`, `Table.unitsAt` — what a reservation takes from the tier at a position.
-/

set_option autoImplicit false

namespace SpotGateway

/-- Units that the charges take from the tier at a position. -/
def unitsAt (charges : List Charge) (position : Nat) : Nat :=
  ((charges.filter fun c => c.position = position).map Charge.units).sum

namespace Table

/-- Units that a reservation of a tier takes from the tier at a position. -/
def unitsAt (table : Table) (tier : String) (position : Nat) : Nat :=
  match table.quota? tier with
  | some q => SpotGateway.unitsAt q.charges position
  | none => 0

/-- What the limiter relies on. -/
structure Regular (table : Table) : Prop where
  window_pos : ∀ q ∈ table.quotas, 0 < q.window.nanos
  /-- Positions rise along the charges of a tier, so that none occurs twice. -/
  charges_rise : ∀ q ∈ table.quotas, (q.charges.map Charge.position).Pairwise (· < ·)

/-! ## The charges of a tier -/

theorem mem_positions_addUnits {charges : List Charge} {target weight p : Nat} :
    p ∈ (addUnits charges target weight).map Charge.position ↔
      p = target ∨ p ∈ charges.map Charge.position := by
  induction charges with
  | nil => simp [addUnits]
  | cons c rest ih =>
    unfold addUnits
    split
    · rename_i hc
      simp [hc]
    · rw [List.map_cons, List.mem_cons, ih, List.map_cons, List.mem_cons]
      exact or_left_comm

theorem nodup_addUnits {charges : List Charge} (h : (charges.map Charge.position).Nodup)
    (target weight : Nat) : ((addUnits charges target weight).map Charge.position).Nodup := by
  induction charges with
  | nil => simp [addUnits]
  | cons c rest ih =>
    obtain ⟨hnew, hrest⟩ := List.nodup_cons.mp (List.map_cons ▸ h)
    unfold addUnits
    split
    · rename_i hc
      rw [List.map_cons, List.nodup_cons]
      exact ⟨hc ▸ hnew, hrest⟩
    · rename_i hc
      rw [List.map_cons, List.nodup_cons, mem_positions_addUnits]
      exact ⟨not_or.mpr ⟨hc, hnew⟩, ih hrest⟩

/-- What every link keeps that leads to a tier, all of them keep. -/
theorem unitsTaken_invariant {tiers : List Tier} {position : Nat} {t : Tier}
    (P : List Charge → Prop) (hown : P [⟨position, 1⟩])
    (hlink : ∀ charges target weight, target < tiers.length → P charges →
      P (addUnits charges target weight)) : P (unitsTaken tiers position t) := by
  refine List.foldlRecOn t.links _ hown fun charges hcharges link _ => ?_
  unfold addLink
  split
  · rename_i target htarget
    exact hlink charges target link.weight (List.findIdx?_eq_some_iff_getElem.mp htarget).1 hcharges
  · exact hcharges

/-- No tier is charged twice. -/
theorem nodup_unitsTaken (tiers : List Tier) (position : Nat) (t : Tier) :
    ((unitsTaken tiers position t).map Charge.position).Nodup :=
  unitsTaken_invariant (fun charges => (charges.map Charge.position).Nodup) (by simp)
    fun _ target weight _ h => nodup_addUnits h target weight

theorem inOrder_eq_insertionSort (charges : List Charge) :
    inOrder charges = charges.insertionSort fun a b => a.position ≤ b.position := by
  have hinsert : insertCharge = List.orderedInsert fun a b => a.position ≤ b.position := by
    funext c rest
    induction rest with
    | nil => rfl
    | cons d rest ih => rw [insertCharge, ih, List.orderedInsert_cons]
  rw [inOrder, hinsert, List.insertionSort]

theorem perm_inOrder (charges : List Charge) : (inOrder charges).Perm charges :=
  inOrder_eq_insertionSort charges ▸ List.perm_insertionSort _ charges

/-- Charges of different tiers are put into strict order. -/
theorem pairwise_inOrder {charges : List Charge} (h : (charges.map Charge.position).Nodup) :
    ((inOrder charges).map Charge.position).Pairwise (· < ·) := by
  have hsorted : ((inOrder charges).map Charge.position).SortedLE := by
    rw [inOrder_eq_insertionSort, List.map_insertionSort _ (· ≤ ·) Charge.position charges
      fun _ _ _ _ => Iff.rfl]
    exact List.sortedLE_insertionSort
  have hnodup := ((perm_inOrder charges).map Charge.position).nodup_iff.mpr h
  exact (hsorted.pairwise.and hnodup).imp fun ⟨hle, hne⟩ => lt_of_le_of_ne hle hne

/-- In whatever order charges of different tiers are found, they are put into the same order. -/
theorem inOrder_eq_of_perm {charges found : List Charge} (hfound : found.Perm charges)
    (h : (charges.map Charge.position).Nodup) : inOrder found = inOrder charges := by
  have hperm : (inOrder found).Perm (inOrder charges) :=
    ((perm_inOrder found).trans hfound).trans (perm_inOrder charges).symm
  have hcharges : (inOrder charges).Pairwise fun c d => c.position < d.position :=
    List.pairwise_map.mp (pairwise_inOrder h)
  have hfound' : (inOrder found).Pairwise fun c d => c.position < d.position :=
    List.pairwise_map.mp (pairwise_inOrder ((hfound.map Charge.position).nodup_iff.mpr h))
  exact hperm.eq_of_pairwise (fun _ _ _ _ hlt hgt => absurd hlt (Nat.lt_asymm hgt)) hfound' hcharges

theorem charges_rise_quotaOf (tiers : List Tier) (position : Nat) (t : Tier) :
    ((quotaOf tiers position t).charges.map Charge.position).Pairwise (· < ·) :=
  pairwise_inOrder (nodup_unitsTaken tiers position t)

theorem resolve_eq_ok_iff {tiers : List Tier} {position : Nat} {t : Tier} {q : Quota} :
    resolve tiers position t = .ok q ↔ t.window.nanos ≤ longestWindow.nanos ∧
      q = quotaOf tiers position t := by
  unfold resolve
  split
  · rename_i hlong
    simp [Nat.not_le.mpr hlong]
  · rename_i hlong
    rw [Except.ok.injEq, eq_comm]
    exact (and_iff_right (Nat.le_of_not_lt hlong)).symm

/-- A resolved tier keeps its window, and its charges follow the order of the table. -/
theorem resolve_eq_ok {tiers : List Tier} {position : Nat} {t : Tier} {q : Quota}
    (h : resolve tiers position t = .ok q) :
    q.window = t.window ∧ (q.charges.map Charge.position).Pairwise (· < ·) := by
  obtain ⟨-, rfl⟩ := resolve_eq_ok_iff.mp h
  exact ⟨rfl, charges_rise_quotaOf tiers position t⟩

/-! ## Resolved tiers -/

/-- The tiers of a table that is accepted are the declared ones, resolved in their order. -/
theorem map_resolve_of_build {tiers : List Tier} {table : Table} (h : build tiers = .ok table) :
    tiers.zipIdx.map (fun (t, position) => resolve tiers position t) = table.quotas.map .ok := by
  unfold build at h
  obtain ⟨_, _, h⟩ := bind_eq_ok.mp h
  obtain ⟨_, _, h⟩ := bind_eq_ok.mp h
  obtain ⟨_, _, h⟩ := bind_eq_ok.mp h
  obtain ⟨quotas, hquotas, h⟩ := bind_eq_ok.mp h
  rw [pure_eq_ok] at h
  subst h
  exact mapM_eq_ok_iff.mp hquotas

theorem exists_resolve_of_build {tiers : List Tier} {table : Table}
    (h : build tiers = .ok table) :
    ∀ q ∈ table.quotas, ∃ t ∈ tiers, ∃ position, resolve tiers position t = .ok q := by
  intro q hq
  have hok : Except.ok q ∈ table.quotas.map (Except.ok (ε := TableError)) := List.mem_map_of_mem hq
  rw [← map_resolve_of_build h] at hok
  obtain ⟨⟨t, position⟩, hmem, hok⟩ := List.mem_map.mp hok
  exact ⟨t, (List.mem_zipIdx hmem).2.2 ▸ List.getElem_mem _, position, hok⟩

/-- **Tables that are accepted are regular.** -/
theorem regular_of_build {tiers : List Tier} {table : Table} (h : build tiers = .ok table) :
    table.Regular := by
  have hresolved := exists_resolve_of_build h
  constructor
  · intro q hq
    obtain ⟨t, ht, position, hok⟩ := hresolved q hq
    rw [(resolve_eq_ok hok).1]
    exact (declared_of_build h).window_pos t ht
  · intro q hq
    obtain ⟨t, _, position, hok⟩ := hresolved q hq
    exact (resolve_eq_ok hok).2

/-! ## Names and positions -/

/-- The tiers of a table that is accepted, by their positions. -/
theorem getElem?_of_build {tiers : List Tier} {table : Table} (h : build tiers = .ok table)
    (p : Nat) : table.quotas[p]? = tiers[p]?.map (quotaOf tiers p) := by
  have hok := congrArg (·[p]?) (map_resolve_of_build h)
  simp only [List.getElem?_map, List.getElem?_zipIdx, Nat.zero_add] at hok
  cases ht : tiers[p]? with
  | none =>
    rw [ht] at hok
    simpa using hok.symm
  | some t =>
    rw [ht] at hok
    obtain ⟨q, hq, hresolve⟩ := Option.map_eq_some_iff.mp hok.symm
    rw [hq, (resolve_eq_ok_iff.mp hresolve.symm).2, Option.map_some]

theorem length_of_build {tiers : List Tier} {table : Table} (h : build tiers = .ok table) :
    table.quotas.length = tiers.length := by
  have := congrArg List.length (map_resolve_of_build h)
  simpa using this.symm

/-- **Charges are made on tiers of the table.** -/
theorem position_lt_of_build {tiers : List Tier} {table : Table} (h : build tiers = .ok table) :
    ∀ q ∈ table.quotas, ∀ c ∈ q.charges, c.position < table.quotas.length := by
  intro q hq c hc
  obtain ⟨p, hp⟩ := List.getElem?_of_mem hq
  rw [getElem?_of_build h, Option.map_eq_some_iff] at hp
  obtain ⟨t, ht, rfl⟩ := hp
  rw [length_of_build h]
  refine unitsTaken_invariant (fun charges => ∀ c ∈ charges, c.position < tiers.length) ?_ ?_ c
    ((perm_inOrder _).mem_iff.mp hc)
  · intro own hown
    rw [List.mem_singleton.mp hown]
    exact (List.getElem?_eq_some_iff.mp ht).1
  · intro charges target weight htarget hcharges d hd
    rcases mem_positions_addUnits.mp (List.mem_map_of_mem hd) with hd | hd
    · exact hd ▸ htarget
    · obtain ⟨e, he, heq⟩ := List.mem_map.mp hd
      exact heq ▸ hcharges e he

theorem ids_of_build {tiers : List Tier} {table : Table} (h : build tiers = .ok table) :
    table.ids = tiers.map Tier.id := by
  apply List.ext_getElem?
  intro p
  rw [ids, List.getElem?_map, List.getElem?_map, getElem?_of_build h, Option.map_map]
  rfl

/-- **No two tiers of a table that is accepted have one name.** -/
theorem nodup_ids_of_build {tiers : List Tier} {table : Table} (h : build tiers = .ok table) :
    table.ids.Nodup := by
  rw [ids_of_build h]
  exact (declared_of_build h).nodup_ids

end Table

end SpotGateway
