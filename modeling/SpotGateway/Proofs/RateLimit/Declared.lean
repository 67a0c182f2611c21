import SpotGateway.Proofs.Distinct
import SpotGateway.Proofs.Outcome
import SpotGateway.RateLimit.Table

/-!
# Declared tiers

What tiers and their links have to meet one by one, before anything is said of where links lead.

* `Table.Declared` — names of their own, something to admit, and links that can be met;
* `Table.declared_iff` — the checks of the tiers and of their links accept exactly such tiers;
* `Table.declared_of_build` — tiers of a table that is accepted are such tiers;
* `Table.positionIn?_eq_some_iff`, `Table.find?_eq_some_iff` — where a name leads;
* `Table.eq_of_id_eq` — names tell positions apart;
* `Table.LinksTo` — the graph of links.
-/

set_option autoImplicit false

namespace SpotGateway.Table

variable {tiers : List Tier} {t : Tier}

/-- Tiers and links that can be met one by one. -/
structure Declared (tiers : List Tier) : Prop where
  nodup_ids : (tiers.map Tier.id).Nodup
  capacity_pos : ∀ t ∈ tiers, 0 < t.capacity
  window_pos : ∀ t ∈ tiers, 0 < t.window.nanos
  /-- A link leads to a tier that has room for its weight. -/
  link_met : ∀ t ∈ tiers, ∀ link ∈ t.links, ∃ target ∈ tiers,
    target.id = link.tier ∧ 1 ≤ link.weight ∧ link.weight ≤ target.capacity

/-- The tier of the one name has a link to the tier of the other. -/
def LinksTo (tiers : List Tier) (source target : String) : Prop :=
  ∃ t ∈ tiers, t.id = source ∧ ∃ link ∈ t.links, link.tier = target

/-! ## The checks -/

theorem checkTier_eq_ok_iff {before : List Tier} : checkTier before t = .ok () ↔
    t.id ∉ before.map Tier.id ∧ 0 < t.capacity ∧ 0 < t.window.nanos := by
  have hany : (before.any fun b => b.id = t.id) = true ↔ t.id ∈ before.map Tier.id := by simp
  unfold checkTier
  rw [Nat.pos_iff_ne_zero, Nat.pos_iff_ne_zero, ← hany]
  split
  · simp_all
  split
  · simp_all
  split <;> simp_all

theorem checkTiers_eq_ok_iff {before tiers : List Tier} : checkTiers before tiers = .ok () ↔
    ((tiers.map Tier.id).Nodup ∧ ∀ t ∈ tiers, t.id ∉ before.map Tier.id) ∧
    ∀ t ∈ tiers, 0 < t.capacity ∧ 0 < t.window.nanos := by
  induction tiers generalizing before with
  | nil => simp [checkTiers]
  | cons t rest ih =>
    rw [checkTiers, bind_eq_ok, List.map_cons, List.nodup_cons, List.forall_mem_cons,
      List.forall_mem_cons]
    constructor
    · rintro ⟨_, ht, hrest⟩
      obtain ⟨hnew, hpos⟩ := checkTier_eq_ok_iff.mp ht
      obtain ⟨⟨hnodup, hapart⟩, hrest⟩ := ih.mp hrest
      simp only [List.map_append, List.map_cons, List.map_nil, List.mem_append,
        List.mem_singleton, not_or] at hapart
      refine ⟨⟨⟨fun hmem => ?_, hnodup⟩, hnew, fun u hu => (hapart u hu).1⟩, hpos, hrest⟩
      obtain ⟨u, hu, hid⟩ := List.mem_map.mp hmem
      exact (hapart u hu).2 hid
    · rintro ⟨⟨⟨hapart, hnodup⟩, hnew, hbefore⟩, hpos, hrest⟩
      refine ⟨(), checkTier_eq_ok_iff.mpr ⟨hnew, hpos⟩, ih.mpr ⟨⟨hnodup, fun u hu => ?_⟩, hrest⟩⟩
      simp only [List.map_append, List.map_cons, List.map_nil, List.mem_append, List.mem_singleton,
        not_or]
      exact ⟨hbefore u hu, fun hid => hapart (hid ▸ List.mem_map_of_mem hu)⟩

/-- The tier of a name, where no two have one name. -/
theorem find?_eq_some_iff (h : (tiers.map Tier.id).Nodup) {id : String} :
    (tiers.find? fun target => target.id = id) = some t ↔ t ∈ tiers ∧ t.id = id :=
  find?_name_eq_some_iff h

theorem checkLink_eq_ok_iff (h : (tiers.map Tier.id).Nodup) {link : Link} :
    checkLink tiers t link = .ok () ↔ ∃ target ∈ tiers,
      target.id = link.tier ∧ 1 ≤ link.weight ∧ link.weight ≤ target.capacity := by
  unfold checkLink
  cases hfind : tiers.find? fun target => target.id = link.tier with
  | none =>
    have hnone : link.tier ∉ tiers.map Tier.id := find?_name_eq_none_iff.mp hfind
    constructor
    · intro hok
      cases hok
    · rintro ⟨target, hmem, hid, _⟩
      exact absurd (hid ▸ List.mem_map_of_mem hmem) hnone
  | some target =>
    obtain ⟨hmem, hid⟩ := (find?_eq_some_iff h).mp hfind
    dsimp only
    constructor
    · intro hok
      refine ⟨target, hmem, hid, ?_⟩
      split at hok
      · cases hok
      split at hok
      · cases hok
      · exact ⟨by omega, by omega⟩
    · rintro ⟨u, hu, hlink, hweight, hroom⟩
      obtain rfl : u = target :=
        Option.some.inj (((find?_eq_some_iff h).mpr ⟨hu, hlink⟩).symm.trans hfind)
      rw [if_neg (by omega), if_neg (by omega)]

/-- **The checks of the tiers and of their links accept exactly the declarations that can be met one
by one.** -/
theorem declared_iff : Declared tiers ↔ checkTiers [] tiers = .ok () ∧
    (tiers.forM fun t => t.links.forM (checkLink tiers t)) = .ok () := by
  simp only [checkTiers_eq_ok_iff, forM_eq_ok_iff]
  constructor
  · intro h
    refine ⟨⟨⟨h.nodup_ids, by simp⟩, fun t ht => ⟨h.capacity_pos t ht, h.window_pos t ht⟩⟩, ?_⟩
    exact fun t ht link hlink => (checkLink_eq_ok_iff h.nodup_ids).mpr (h.link_met t ht link hlink)
  · rintro ⟨⟨⟨hnodup, -⟩, hpos⟩, hlinks⟩
    exact ⟨hnodup, fun t ht => (hpos t ht).1, fun t ht => (hpos t ht).2,
      fun t ht link hlink => (checkLink_eq_ok_iff hnodup).mp (hlinks t ht link hlink)⟩

theorem declared_of_build {table : Table} (h : build tiers = .ok table) : Declared tiers := by
  unfold build at h
  obtain ⟨_, htiers, h⟩ := bind_eq_ok.mp h
  obtain ⟨_, hlinks, _⟩ := bind_eq_ok.mp h
  exact declared_iff.mpr ⟨htiers, hlinks⟩

/-! ## Positions -/

/-- The position of a name, where no two tiers have one name. -/
theorem positionIn?_eq_some_iff (h : (tiers.map Tier.id).Nodup) {id : String} {p : Nat} :
    positionIn? tiers id = some p ↔ ∃ t, tiers[p]? = some t ∧ t.id = id := by
  unfold positionIn?
  rw [List.findIdx?_eq_some_iff_getElem]
  constructor
  · rintro ⟨hp, hid, -⟩
    exact ⟨tiers[p], List.getElem?_eq_getElem hp, of_decide_eq_true hid⟩
  · rintro ⟨t, ht, hid⟩
    obtain ⟨hp, rfl⟩ := List.getElem?_eq_some_iff.mp ht
    refine ⟨hp, decide_eq_true hid, fun j hj hsame => ?_⟩
    -- a second tier of that name would come before the first
    have hapart := List.pairwise_iff_getElem.mp (List.pairwise_map.mp h) j p (by omega) hp hj
    exact hapart ((of_decide_eq_true hsame).trans hid.symm)

/-- Where no two tiers have one name, a position is told by the name of the tier at it. -/
theorem eq_of_id_eq (h : (tiers.map Tier.id).Nodup) {u : Tier} {p q : Nat} (ht : tiers[p]? = some t)
    (hu : tiers[q]? = some u) (hid : u.id = t.id) : q = p :=
  Option.some.inj (((positionIn?_eq_some_iff h).mpr ⟨u, hu, hid⟩).symm.trans
    ((positionIn?_eq_some_iff h).mpr ⟨t, ht, rfl⟩))

end SpotGateway.Table
