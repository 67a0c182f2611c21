import SpotGateway.Proofs.RateLimit.Refusal
import SpotGateway.Proofs.RateLimit.Resolution

/-!
# Tiers that can be reserved at all

A table is accepted if each link by itself fits the tier that it leads to.  What several links to
one tier take together need not fit, and then nothing can ever be reserved of the tier that they
belong to.

* `Limiter.getElem?_rollAll_create` — every tier that is charged first has all its units left;
* `Limiter.reserve_create_iff` — what a limiter admits that was not used before;
* `Limiter.admits_iff_fits` — in terms of the weights that were declared;
* `Limiter.refuses_doubledLink` — two links that each fit, and together do not.
-/

set_option autoImplicit false

namespace SpotGateway

/-- The only link to a tier weighs what all of them weigh together. -/
theorem Tier.weightTo_of_nodup {t : Tier} (h : (t.links.map Link.tier).Nodup) {link : Link}
    (hlink : link ∈ t.links) : t.weightTo link.tier = link.weight := by
  have honly : (t.links.filter fun other => other.tier = link.tier) = [link] :=
    filter_name_eq h hlink
  rw [weightTo, honly]
  simp

namespace Limiter

variable {tiers : List Tier} {table : Table} {t : Tier} {p : Nat} {now : Timestamp}

theorem gauge?_create (hb : Table.build tiers = .ok table) (ht : tiers[p]? = some t)
    (owner : Nat) : (create owner table).gauge? t.id = some (.fresh (Table.quotaOf tiers p t)) := by
  have hquotas : (create owner table).gauge? t.id = (table.quota? t.id).map Gauge.fresh := by
    rw [gauge?, create, List.find?_map]
    rfl
  rw [hquotas, Table.quota?_of_build hb ht, Option.map_some]

/-- What is charged first has all its units left. -/
theorem getElem?_rollAll_create (hb : Table.build tiers = .ok table) (ht : tiers[p]? = some t)
    (owner : Nat) {c : Charge} (hc : c ∈ (Table.quotaOf tiers p t).charges) :
    ∃ u g, tiers[c.position]? = some u ∧
      (rollAll now (Table.quotaOf tiers p t).charges (create owner table).gauges)[c.position]? =
        some g ∧ g.remaining = u.capacity := by
  obtain ⟨u, hu, -⟩ := (Table.mem_charges_iff hb ht).mp hc
  have hconcerns : concernsAt (Table.quotaOf tiers p t).charges c.position = true :=
    List.any_eq_true.mpr ⟨c, hc, by simp⟩
  refine ⟨u, (Gauge.fresh (Table.quotaOf tiers c.position u)).roll now, hu, ?_, rfl⟩
  rw [getElem?_rollAll (Table.charges_rise_quotaOf tiers p t), if_pos hconcerns, create,
    List.getElem?_map, Table.getElem?_of_build hb, hu]
  rfl

/-- A limiter that was not used before admits a reservation exactly if each charge by itself fits
its tier. -/
theorem reserve_create_iff (hb : Table.build tiers = .ok table) (ht : tiers[p]? = some t)
    (owner : Nat) : (∃ l r, (create owner table).reserve t.id now = .ok (l, .ok r)) ↔
      ∀ c ∈ (Table.quotaOf tiers p t).charges, ∀ u, tiers[c.position]? = some u →
        c.units ≤ u.capacity := by
  have hgauge := gauge?_create hb ht owner
  constructor
  · rintro ⟨l, r, hreserve⟩ c hc u hu
    obtain ⟨u', g, hu', hg, hremaining⟩ := getElem?_rollAll_create hb ht owner hc
    rw [hu] at hu'
    cases hu'
    rcases reserve_cases hreserve with ⟨hnone, -⟩ | ⟨g', hg', hcases⟩
    · rw [hgauge] at hnone
      cases hnone
    · rw [hgauge] at hg'
      cases hg'
      rcases hcases with ⟨d, -, -, hrefused⟩ | ⟨hroom, -⟩
      · cases hrefused
      · exact hremaining ▸ room_of_denial? hroom c hc g hg
  · intro hfits
    have hroom : denial? now (Table.quotaOf tiers p t).charges
        (rollAll now (Table.quotaOf tiers p t).charges (create owner table).gauges) = .ok none := by
      refine denial?_of_room fun c hc g hg => ?_
      obtain ⟨u, g', hu, hg', hremaining⟩ := getElem?_rollAll_create hb ht owner hc
      rw [hg] at hg'
      cases hg'
      exact hremaining ▸ hfits c hc u hu
    have hcharges : (Gauge.fresh (Table.quotaOf tiers p t)).quota.charges =
        (Table.quotaOf tiers p t).charges := rfl
    simp only [reserve, hgauge, hcharges, hroom]
    exact ⟨_, _, rfl⟩

/-- **What can be reserved at all.**  Of every table that is accepted and at every instant, a tier
can be reserved of a limiter that was not used before exactly if what its links to any one tier
weigh together, in words of 32 bits, is no more than the capacity of that tier; in particular if no
two of its links lead to one tier. -/
theorem admits_iff_fits (hb : Table.build tiers = .ok table) (ht : t ∈ tiers) (owner : Nat)
    (now : Timestamp) :
    ((∃ l r, (create owner table).reserve t.id now = .ok (l, .ok r)) ↔
      ∀ u ∈ tiers, t.weightTo u.id % Table.unitLimit ≤ u.capacity) ∧
    ((t.links.map Link.tier).Nodup →
      ∃ l r, (create owner table).reserve t.id now = .ok (l, .ok r)) := by
  have hdeclared := Table.declared_of_build hb
  obtain ⟨p, hp⟩ := List.getElem?_of_mem ht
  have hiff : (∃ l r, (create owner table).reserve t.id now = .ok (l, .ok r)) ↔
      ∀ u ∈ tiers, t.weightTo u.id % Table.unitLimit ≤ u.capacity := by
    rw [reserve_create_iff hb hp]
    constructor
    · intro hfits u hu
      obtain ⟨q, hq⟩ := List.getElem?_of_mem hu
      by_cases hlinked : u.id ∈ t.links.map Link.tier
      · have hother : u.id ≠ t.id := fun hid => Table.not_linksTo_self hb ht (hid ▸ hlinked)
        refine hfits ⟨q, _⟩ ((Table.mem_charges_iff hb hp).mpr ⟨u, hq, ?_⟩) u hq
        rw [if_neg hother]
        exact ⟨hlinked, rfl⟩
      · rw [Tier.weightTo_eq_zero hlinked]
        exact Nat.zero_le _
    · intro hfits c hc u hu
      obtain ⟨u', hu', hcharge⟩ := (Table.mem_charges_iff hb hp).mp hc
      rw [hu] at hu'
      cases hu'
      split at hcharge
      · exact hcharge ▸ hdeclared.capacity_pos u (List.mem_of_getElem? hu)
      · exact hcharge.2 ▸ hfits u (List.mem_of_getElem? hu)
  refine ⟨hiff, fun hnodup => hiff.mpr fun u hu => ?_⟩
  by_cases hlinked : u.id ∈ t.links.map Link.tier
  · obtain ⟨link, hlink, hname⟩ := List.mem_map.mp hlinked
    obtain ⟨u', hu', hid, -, hroom⟩ := hdeclared.link_met t ht link hlink
    obtain ⟨q, hq⟩ := List.getElem?_of_mem hu
    obtain ⟨q', hq'⟩ := List.getElem?_of_mem hu'
    obtain rfl := Table.eq_of_id_eq hdeclared.nodup_ids hq hq' (hid.trans hname)
    rw [hq] at hq'
    cases hq'
    rw [← hname, Tier.weightTo_of_nodup hnodup hlink]
    exact (Nat.mod_le _ _).trans hroom
  · rw [Tier.weightTo_eq_zero hlinked]
    exact Nat.zero_le _

/-- Two links that take all of a tier together, and one that takes all of another. -/
def filledLinks : List Tier :=
  [Tier.perMinute "weight" 5, Tier.perMinute "raw" 7,
    (Tier.perSecond "orders" 10).linkedTo "weight" 3 |>.linkedTo "raw" 7 |>.linkedTo "weight" 2]

theorem admits_filledLinks : ∃ table, Table.build filledLinks = .ok table ∧
    ∀ owner now, ∃ l r, (create owner table).reserve "orders" now = .ok (l, .ok r) := by
  obtain ⟨table, hb⟩ : ∃ table, Table.build filledLinks = .ok table := ⟨_, rfl⟩
  have hlast := List.getLast_mem (l := filledLinks) (by decide)
  exact ⟨table, hb, fun owner now => (admits_iff_fits hb hlast owner now).1.mpr (by decide)⟩

/-- Each of the two links fits the tier that it leads to. -/
def doubledLink : List Tier :=
  [Tier.perMinute "weight" 5,
    (Tier.perSecond "orders" 10).linkedTo "weight" 3 |>.linkedTo "weight" 3]

/-- **Two links that each fit, and together do not.**  The table is accepted, and one of its tiers
is never admitted, not even when nothing was reserved before. -/
theorem refuses_doubledLink : ∃ table, Table.build doubledLink = .ok table ∧
    (∃ l, (create 1 table).reserve "orders" ⟨0, false⟩ = .ok (l, .error (.exceeded
      ⟨"weight", 6, 5, 5, .ofSeconds 60, ⟨60000000000, false⟩⟩))) ∧
    ∀ owner now, ¬ ∃ l r, (create owner table).reserve "orders" now = .ok (l, .ok r) := by
  obtain ⟨table, hb⟩ : ∃ table, Table.build doubledLink = .ok table := ⟨_, rfl⟩
  have horders : doubledLink[1]? = some ((Tier.perSecond "orders" 10).linkedTo "weight" 3
    |>.linkedTo "weight" 3) := rfl
  refine ⟨table, hb, ?_, fun owner now hadmitted => ?_⟩
  · cases hb
    exact ⟨_, rfl⟩
  · have hfits := (reserve_create_iff hb horders owner).mp hadmitted ⟨0, 6⟩ (by decide) _ rfl
    exact absurd hfits (by decide)

end Limiter

end SpotGateway
