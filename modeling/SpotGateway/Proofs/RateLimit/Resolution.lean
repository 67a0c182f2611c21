import SpotGateway.Proofs.RateLimit.Linkage
import SpotGateway.Proofs.RateLimit.Regular

/-!
# What a reservation takes from which tier

Links are added up by the tier that they lead to.  A reservation takes one unit of its own tier and
from every tier that it is linked to what all its links to that tier weigh together, and it takes
from the tiers in the order of the table.

* `Tier.weightTo` — what the links to a tier weigh together;
* `Table.mem_unitsTaken_iff` — adding links up, seen at one charge;
* `Table.not_linksTo_self` — no tier of a table that is accepted is linked to itself;
* `Table.mem_charges_iff` — the charges of a tier, units being counted in words of 32 bits;
* `Table.charges_of_build` — charges where no word overflows.
-/

set_option autoImplicit false

namespace SpotGateway

/-- The weights of all links to the tier of a name together. -/
def Tier.weightTo (t : Tier) (id : String) : Nat :=
  ((t.links.filter fun link => link.tier = id).map Link.weight).sum

theorem Tier.weightTo_eq_zero {t : Tier} {id : String} (h : id ∉ t.links.map Link.tier) :
    t.weightTo id = 0 := by
  have hnone : (t.links.filter fun link => link.tier = id) = [] := by
    refine List.filter_eq_nil_iff.mpr fun link hlink hid => h ?_
    exact of_decide_eq_true hid ▸ List.mem_map_of_mem hlink
  rw [weightTo, hnone]
  rfl

theorem Tier.weightTo_le (t : Tier) (id : String) :
    t.weightTo id ≤ (t.links.map Link.weight).sum :=
  (List.filter_sublist.map Link.weight).sum_le_sum fun _ _ => Nat.zero_le _

theorem unitsAt_cons (c : Charge) (rest : List Charge) (p : Nat) :
    unitsAt (c :: rest) p = (if c.position = p then c.units else 0) + unitsAt rest p := by
  unfold unitsAt
  rw [List.filter_cons]
  by_cases h : c.position = p <;> simp [h]

theorem unitsAt_eq_zero {charges : List Charge} {p : Nat} (h : p ∉ charges.map Charge.position) :
    unitsAt charges p = 0 := by
  induction charges with
  | nil => rfl
  | cons c rest ih =>
    rw [List.map_cons, List.mem_cons, not_or] at h
    rw [unitsAt_cons, if_neg (Ne.symm h.1), ih h.2]

/-- Where no tier is charged twice, a charge is told by the tier that is charged. -/
theorem mem_iff_unitsAt {charges : List Charge} (h : (charges.map Charge.position).Nodup)
    {c : Charge} : c ∈ charges ↔
      c.position ∈ charges.map Charge.position ∧ c.units = unitsAt charges c.position := by
  induction charges with
  | nil => simp
  | cons d rest ih =>
    obtain ⟨hnew, hrest⟩ := List.nodup_cons.mp (List.map_cons ▸ h)
    rw [List.mem_cons, List.map_cons, List.mem_cons, unitsAt_cons, ih hrest]
    by_cases hp : d.position = c.position
    · rw [if_pos hp, ← hp, unitsAt_eq_zero hnew]
      have heq : c = d ↔ c.units = d.units := by
        cases c
        cases d
        simp_all
      simp [heq, hnew]
    · have hne : c ≠ d := fun heq => hp (heq ▸ rfl)
      simp [if_neg hp, Ne.symm hp, hne]

/-! ## Adding links up -/

section

variable {tiers : List Tier} {charges : List Charge} {p : Nat}

theorem unitsAt_addUnits (h : (charges.map Charge.position).Nodup) (target weight p : Nat) :
    unitsAt (Table.addUnits charges target weight) p =
      if p = target then (unitsAt charges target + weight) % Table.unitLimit
      else unitsAt charges p := by
  induction charges with
  | nil =>
    rw [Table.addUnits, unitsAt_cons]
    by_cases hp : p = target
    · simp [hp, unitsAt]
    · simp [hp, Ne.symm hp]
  | cons c rest ih =>
    obtain ⟨hnew, hrest⟩ := List.nodup_cons.mp (List.map_cons ▸ h)
    unfold Table.addUnits
    split
    · rename_i hc
      subst hc
      rw [unitsAt_cons, unitsAt_cons, unitsAt_cons]
      by_cases hp : p = c.position
      · simp [hp, unitsAt_eq_zero hnew]
      · simp [hp, Ne.symm hp]
    · rename_i hc
      rw [unitsAt_cons, unitsAt_cons, unitsAt_cons, ih hrest]
      by_cases hp : p = target
      · simp [hp, hc]
      · simp [hp]

/-- Which tiers are charged once links were added, and by how much. -/
theorem foldl_addLink (links : List Link) (h : (charges.map Charge.position).Nodup)
    (hword : unitsAt charges p < Table.unitLimit) :
    (p ∈ (links.foldl (Table.addLink tiers) charges).map Charge.position ↔
      p ∈ charges.map Charge.position ∨
        ∃ link ∈ links, Table.positionIn? tiers link.tier = some p) ∧
    unitsAt (links.foldl (Table.addLink tiers) charges) p = (unitsAt charges p +
      ((links.filter fun link => Table.positionIn? tiers link.tier = some p).map Link.weight).sum) %
        Table.unitLimit := by
  induction links generalizing charges with
  | nil => simp [Nat.mod_eq_of_lt hword]
  | cons link rest ih =>
    rw [List.foldl_cons, Table.addLink]
    cases htarget : Table.positionIn? tiers link.tier with
    | none =>
      obtain ⟨hmem, hunits⟩ := ih h hword
      dsimp only
      rw [hmem, hunits]
      simp [htarget]
    | some target =>
      have hunits := unitsAt_addUnits h target link.weight p
      have hword' : unitsAt (Table.addUnits charges target link.weight) p < Table.unitLimit := by
        rw [hunits]
        split
        · exact Nat.mod_lt _ (by decide)
        · exact hword
      obtain ⟨hmem', hunits'⟩ := ih (Table.nodup_addUnits h target link.weight) hword'
      dsimp only
      rw [hmem', hunits', hunits, Table.mem_positions_addUnits]
      by_cases hp : p = target
      · subst hp
        simp [htarget, Nat.add_assoc]
      · simp [htarget, hp, Ne.symm hp]

end

/-! ## Charges by the names of tiers -/

namespace Table

variable {tiers : List Tier} {table : Table} {t u : Tier} {p : Nat} {c : Charge}

/-- What the links to a tier weigh together, by its position. -/
theorem weightTo_eq_sum (h : (tiers.map Tier.id).Nodup) (t : Tier) (hu : tiers[p]? = some u) :
    ((t.links.filter fun link => positionIn? tiers link.tier = some p).map Link.weight).sum =
      t.weightTo u.id := by
  have hsame : ∀ link : Link, positionIn? tiers link.tier = some p ↔ link.tier = u.id := by
    intro link
    rw [positionIn?_eq_some_iff h, hu]
    simp [eq_comm]
  simp only [hsame, Tier.weightTo]

/-- Adding links up, seen at one charge: of a tier that is not linked to itself, one unit of its own
and the weights of its links. -/
theorem mem_unitsTaken_iff (h : (tiers.map Tier.id).Nodup) (ht : tiers[p]? = some t)
    (hself : t.id ∉ t.links.map Link.tier) : c ∈ unitsTaken tiers p t ↔
      ∃ u, tiers[c.position]? = some u ∧ if u.id = t.id then c.units = 1
        else u.id ∈ t.links.map Link.tier ∧ c.units = t.weightTo u.id % unitLimit := by
  have hown : SpotGateway.unitsAt [⟨p, 1⟩] c.position = if p = c.position then 1 else 0 := by
    rw [unitsAt_cons]
    rfl
  obtain ⟨hmem, hunits⟩ := @foldl_addLink tiers [⟨p, 1⟩] c.position t.links (by simp)
    (by rw [hown]; split <;> decide)
  rw [mem_iff_unitsAt (nodup_unitsTaken tiers p t), unitsTaken, hmem, hunits, hown]
  rw [List.map_cons, List.map_nil, List.mem_singleton]
  constructor
  · rintro ⟨hcharged, heq⟩
    by_cases hp : c.position = p
    · refine ⟨t, hp ▸ ht, ?_⟩
      rw [if_pos rfl, heq, if_pos hp.symm, weightTo_eq_sum h t (hp ▸ ht),
        Tier.weightTo_eq_zero hself]
      rfl
    · obtain ⟨link, hlink, hposition⟩ := hcharged.resolve_left hp
      obtain ⟨u, hu, hid⟩ := (positionIn?_eq_some_iff h).mp hposition
      refine ⟨u, hu, ?_⟩
      rw [if_neg fun hsame => hp (eq_of_id_eq h ht hu hsame), heq, if_neg (Ne.symm hp),
        weightTo_eq_sum h t hu, Nat.zero_add]
      exact ⟨hid ▸ List.mem_map_of_mem hlink, rfl⟩
  · rintro ⟨u, hu, hcharge⟩
    split at hcharge
    · rename_i hid
      have hp := eq_of_id_eq h ht hu hid
      refine ⟨.inl hp, ?_⟩
      rw [hcharge, if_pos hp.symm, weightTo_eq_sum h t hu, hid, Tier.weightTo_eq_zero hself]
      rfl
    · rename_i hid
      obtain ⟨hlinked, hweight⟩ := hcharge
      obtain ⟨link, hlink, hname⟩ := List.mem_map.mp hlinked
      have hp : p ≠ c.position := by
        rintro rfl
        rw [ht] at hu
        exact hid (Option.some.inj hu ▸ rfl)
      refine ⟨.inr ⟨link, hlink, (positionIn?_eq_some_iff h).mpr ⟨u, hu, hname.symm⟩⟩, ?_⟩
      rw [hweight, if_neg hp, weightTo_eq_sum h t hu, Nat.zero_add]

/-- No tier of a table that is accepted is linked to itself. -/
theorem not_linksTo_self (hb : build tiers = .ok table) (ht : t ∈ tiers) :
    t.id ∉ t.links.map Link.tier := by
  intro hmem
  obtain ⟨link, hlink, hname⟩ := List.mem_map.mp hmem
  exact acyclic_of_build hb t.id (.single ⟨t, ht, rfl, link, hlink, hname⟩)

/-- The charges of a tier of a table that is accepted: one unit of its own, and of each tier that it
is linked to the weights of the links, added up in words of 32 bits. -/
theorem mem_charges_iff (hb : build tiers = .ok table) (ht : tiers[p]? = some t) :
    c ∈ (quotaOf tiers p t).charges ↔
      ∃ u, tiers[c.position]? = some u ∧ if u.id = t.id then c.units = 1
        else u.id ∈ t.links.map Link.tier ∧ c.units = t.weightTo u.id % unitLimit :=
  (perm_inOrder _).mem_iff.trans (mem_unitsTaken_iff (declared_of_build hb).nodup_ids ht
    (not_linksTo_self hb (List.mem_of_getElem? ht)))

/-! ## Lookup by name -/

theorem quota?_of_build (hb : build tiers = .ok table) (ht : tiers[p]? = some t) :
    table.quota? t.id = some (quotaOf tiers p t) := by
  have hq : table.quotas[p]? = some (quotaOf tiers p t) := by
    rw [getElem?_of_build hb, ht]
    rfl
  exact (find?_name_eq_some_iff (nodup_ids_of_build hb)).mpr ⟨List.mem_of_getElem? hq, rfl⟩

theorem position?_of_build (hb : build tiers = .ok table) (ht : tiers[p]? = some t) :
    table.position? t.id = some p := by
  have hids : table.position? t.id = table.ids.findIdx? fun id => id = t.id := by
    rw [position?, ids, List.findIdx?_map]
    rfl
  have htiers : positionIn? tiers t.id = (tiers.map Tier.id).findIdx? fun id => id = t.id := by
    rw [positionIn?, List.findIdx?_map]
    rfl
  rw [hids, ids_of_build hb, ← htiers]
  exact (positionIn?_eq_some_iff (declared_of_build hb).nodup_ids).mpr ⟨t, ht, rfl⟩

/-- The charges of a tier by name are its charges by position. -/
theorem charges?_of_build (hb : build tiers = .ok table) (ht : tiers[p]? = some t) :
    table.charges? t.id = some ((quotaOf tiers p t).charges.map fun c =>
      (nameAt tiers c.position, c.units)) := by
  rw [charges?, quota?_of_build hb ht, Option.map_some, Option.some.injEq, ← List.filterMap_eq_map]
  refine List.filterMap_congr fun c hc => ?_
  obtain ⟨u, hu, -⟩ := (mem_charges_iff hb ht).mp hc
  rw [getElem?_of_build hb, hu, Function.comp, nameAt_of_getElem? hu]
  rfl

/-- **A reservation takes one unit of its tier and the weights of its links.**  For every table that
is accepted and whose links to one tier never weigh more together than a word of 32 bits holds: the
charges of a tier follow the order of the table, no tier twice; there is one for the tier itself, of
one unit, and one for each tier that it has links to, of the exact sum of their weights; and there is
no other, in particular none for what those tiers are linked to. -/
theorem charges_of_build (hb : build tiers = .ok table)
    (hword : ∀ t ∈ tiers, ∀ id, t.weightTo id < unitLimit) (ht : t ∈ tiers) :
    ∃ q charges, table.quota? t.id = some q ∧ table.charges? t.id = some charges ∧
      (q.charges.map Charge.position).Pairwise (· < ·) ∧
      charges.map (fun c => table.position? c.1) = q.charges.map (fun c => some c.position) ∧
      charges.map Prod.snd = q.charges.map Charge.units ∧
      ∀ id units, (id, units) ∈ charges ↔ if id = t.id then units = 1
        else id ∈ t.links.map Link.tier ∧ units = t.weightTo id := by
  obtain ⟨p, hp⟩ := List.getElem?_of_mem ht
  refine ⟨_, _, quota?_of_build hb hp, charges?_of_build hb hp,
    charges_rise_quotaOf tiers p t, ?_, ?_, fun id units => ?_⟩
  · rw [List.map_map]
    refine List.map_congr_left fun c hc => ?_
    obtain ⟨u, hu, -⟩ := (mem_charges_iff hb hp).mp hc
    rw [Function.comp, nameAt_of_getElem? hu, position?_of_build hb hu]
  · rw [List.map_map]
    rfl
  · have hcharges : ∀ c, c ∈ (quotaOf tiers p t).charges ↔ ∃ u, tiers[c.position]? = some u ∧
        if u.id = t.id then c.units = 1
        else u.id ∈ t.links.map Link.tier ∧ c.units = t.weightTo u.id := by
      intro c
      simp only [mem_charges_iff hb hp, Nat.mod_eq_of_lt (hword t ht _)]
    rw [List.mem_map]
    constructor
    · rintro ⟨c, hc, heq⟩
      obtain ⟨u, hu, hcharge⟩ := (hcharges c).mp hc
      rw [nameAt_of_getElem? hu, Prod.mk.injEq] at heq
      obtain ⟨rfl, rfl⟩ := heq
      exact hcharge
    · intro hcharge
      obtain ⟨u, hu, rfl⟩ : ∃ u ∈ tiers, u.id = id := by
        split at hcharge
        · exact ⟨t, ht, Eq.symm ‹_›⟩
        · obtain ⟨link, hlink, rfl⟩ := List.mem_map.mp hcharge.1
          obtain ⟨u, hu, hid, -⟩ := (declared_of_build hb).link_met t ht link hlink
          exact ⟨u, hu, hid⟩
      obtain ⟨q, hq⟩ := List.getElem?_of_mem hu
      exact ⟨⟨q, units⟩, (hcharges _).mpr ⟨u, hq, hcharge⟩, by rw [nameAt_of_getElem? hq]⟩

/-- Two links to one tier, and a tier in between that has a link of its own. -/
def doublyLinked : List Tier :=
  [(Tier.perSecond "orders" 10).linkedTo "weight" 2 |>.linkedTo "raw" 4 |>.linkedTo "weight" 3,
    (Tier.perMinute "weight" 20).linkedTo "spare" 7, Tier.perMinute "spare" 30,
    Tier.perMinute "raw" 50]

theorem charges_doublyLinked : ∃ table, build doublyLinked = .ok table ∧
    (∀ t ∈ doublyLinked, ∀ id, t.weightTo id < unitLimit) ∧
    ∃ q, table.quota? "orders" = some q ∧
      table.charges? "orders" = some [("orders", 1), ("weight", 5), ("raw", 4)] ∧
      (q.charges.map Charge.position).Pairwise (· < ·) ∧ q.charges.map Charge.position = [0, 1, 3] := by
  obtain ⟨table, hb⟩ : ∃ table, build doublyLinked = .ok table := ⟨_, rfl⟩
  have hword : ∀ t ∈ doublyLinked, ∀ id, t.weightTo id < unitLimit := by
    have hall : ∀ t ∈ doublyLinked, (t.links.map Link.weight).sum < unitLimit := by decide
    exact fun t ht id => lt_of_le_of_lt (t.weightTo_le id) (hall t ht)
  obtain ⟨q, charges, hq, hcharges, hrise, -⟩ := charges_of_build hb hword List.mem_cons_self
  cases hb
  cases hq
  exact ⟨_, rfl, hword, _, rfl, rfl, hrise, rfl⟩

end Table

end SpotGateway
