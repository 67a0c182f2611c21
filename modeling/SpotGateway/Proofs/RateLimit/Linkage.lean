import SpotGateway.Proofs.RateLimit.Cycle
import SpotGateway.Proofs.RateLimit.Declared

/-!
# Circles of links

Tiers that can be met one by one are refused for a circle of links exactly if their links lead in
one, and the circle that is named is one of theirs.

* `Table.leads_linkedFrom_iff` — the graph of positions is that of names;
* `Table.transGen_iff` — a circle of the one is a circle of the other;
* `Table.build_eq_cyclicLinkage_iff` — when tiers are refused for a circle;
* `Table.cyclicLinkage_of_declared` — the search for circles is right, and comes to an end;
* `Table.acyclic_of_build` — links of a table that is accepted lead in no circle.
-/

set_option autoImplicit false

namespace SpotGateway.Table

open SpotGateway.Cycle Relation

variable {tiers : List Tier} {p q : Nat}

/-! ## Names and positions -/

/-- The name of the tier at a position. -/
def nameAt (tiers : List Tier) (p : Nat) : String := (tiers[p]?.map Tier.id).getD ""

theorem nameAt_of_getElem? {t : Tier} (h : tiers[p]? = some t) : nameAt tiers p = t.id := by
  rw [nameAt, h]
  rfl

theorem leads_linkedFrom_iff (h : Declared tiers) : Leads (linkedFrom tiers) p q ↔
    p < tiers.length ∧ q < tiers.length ∧ LinksTo tiers (nameAt tiers p) (nameAt tiers q) := by
  unfold Leads linkedFrom
  constructor
  · intro hmem
    split at hmem
    · rename_i t ht
      obtain ⟨link, hlink, hq⟩ := List.mem_filterMap.mp hmem
      obtain ⟨u, hu, hid⟩ := (positionIn?_eq_some_iff h.nodup_ids).mp hq
      refine ⟨(List.getElem?_eq_some_iff.mp ht).1, (List.getElem?_eq_some_iff.mp hu).1, t,
        List.mem_of_getElem? ht, (nameAt_of_getElem? ht).symm, link, hlink, ?_⟩
      rw [nameAt_of_getElem? hu, hid]
    · cases hmem
  · rintro ⟨hp, hq, t, ht, hid, link, hlink, hname⟩
    have hsource := List.getElem?_eq_getElem hp
    have htarget := List.getElem?_eq_getElem hq
    obtain ⟨i, hi⟩ := List.getElem?_of_mem ht
    obtain rfl := eq_of_id_eq h.nodup_ids hsource hi (hid.trans (nameAt_of_getElem? hsource))
    rw [hi]
    refine List.mem_filterMap.mpr ⟨link, hlink, (positionIn?_eq_some_iff h.nodup_ids).mpr
      ⟨tiers[q], htarget, ?_⟩⟩
    rw [hname, nameAt_of_getElem? htarget]

theorem lt_of_leads (h : Declared tiers) (a b : Nat) (hlead : Leads (linkedFrom tiers) a b) :
    a < tiers.length :=
  ((leads_linkedFrom_iff h).mp hlead).1

/-- A link leads from a position to a position. -/
theorem LinksTo.leads (h : Declared tiers) {source target : String}
    (hlink : LinksTo tiers source target) :
    Leads (linkedFrom tiers) ((positionIn? tiers source).getD 0)
      ((positionIn? tiers target).getD 0) := by
  obtain ⟨t, ht, rfl, link, hlink, rfl⟩ := hlink
  obtain ⟨u, hu, hid, -⟩ := h.link_met t ht link hlink
  obtain ⟨p, hp⟩ := List.getElem?_of_mem ht
  obtain ⟨q, hq⟩ := List.getElem?_of_mem hu
  have hsource := (positionIn?_eq_some_iff h.nodup_ids).mpr ⟨t, hp, rfl⟩
  have htarget := (positionIn?_eq_some_iff h.nodup_ids).mpr ⟨u, hq, hid⟩
  rw [hsource, htarget, Option.getD_some, Option.getD_some, Leads, linkedFrom, hp]
  exact List.mem_filterMap.mpr ⟨link, hlink, htarget⟩

/-- Links lead in a circle exactly if positions do. -/
theorem transGen_iff (h : Declared tiers) : (∃ id, TransGen (LinksTo tiers) id id) ↔
    ∃ p, TransGen (Leads (linkedFrom tiers)) p p := by
  constructor
  · rintro ⟨id, hcycle⟩
    exact ⟨_, hcycle.lift _ fun _ _ hlink => hlink.leads h⟩
  · rintro ⟨p, hcycle⟩
    exact ⟨nameAt tiers p,
      hcycle.lift (nameAt tiers) fun _ _ hlead => ((leads_linkedFrom_iff h).mp hlead).2.2⟩

/-- Along a cycle there are only positions of tiers. -/
theorem lt_of_mem_cycle (h : Declared tiers) {cycle : List Nat}
    (hcycle : SimpleCycle (Leads (linkedFrom tiers)) cycle) : ∀ p ∈ cycle, p < tiers.length := by
  obtain ⟨hlength, hclosed, hchain, -⟩ := hcycle
  intro p hp
  match cycle with
  | [] => cases hp
  | a :: rest =>
    rcases List.mem_cons.mp hp with rfl | hp
    · match rest with
      | [] => simp at hlength
      | b :: rest => exact lt_of_leads h _ b (List.isChain_cons_cons.mp hchain).1
    · obtain ⟨i, hi, rfl⟩ := List.getElem_of_mem hp
      have hlead := List.isChain_iff_getElem.mp hchain i (by simpa using hi)
      exact ((leads_linkedFrom_iff h).mp hlead).2.1

/-- A cycle of positions is one of names. -/
theorem simpleCycle_namesAt (h : Declared tiers) {cycle : List Nat}
    (hcycle : SimpleCycle (Leads (linkedFrom tiers)) cycle) :
    SimpleCycle (LinksTo tiers) (namesAt tiers cycle) := by
  have hlt := lt_of_mem_cycle h hcycle
  have hnames : namesAt tiers cycle = cycle.map (nameAt tiers) := by
    rw [← List.filterMap_eq_map]
    refine List.filterMap_congr fun p hp => ?_
    rw [Function.comp, nameAt, List.getElem?_eq_getElem (hlt p hp)]
    rfl
  rw [hnames]
  refine hcycle.map (fun _ _ hlead => ((leads_linkedFrom_iff h).mp hlead).2.2) ?_
  intro a ha b hb heq
  have hat := List.getElem?_eq_getElem (hlt a ha)
  have hbt := List.getElem?_eq_getElem (hlt b hb)
  rw [nameAt_of_getElem? hat, nameAt_of_getElem? hbt] at heq
  exact eq_of_id_eq h.nodup_ids hbt hat heq

/-! ## Refusals for a circle -/

theorem checkCycles_cases (h : Declared tiers) :
    (checkCycles tiers = .ok () ∧ ∀ p, ¬ TransGen (Leads (linkedFrom tiers)) p p) ∨
    ∃ cycle, checkCycles tiers = .error (.cyclicLinkage (namesAt tiers cycle)) ∧
      SimpleCycle (Leads (linkedFrom tiers)) cycle := by
  unfold checkCycles findCycle?
  rcases search_cases (lt_of_leads h) le_rfl with ⟨⟨s, hs⟩, hnone⟩ | ⟨path, node, hs, hback⟩
  · rw [hs]
    exact .inl ⟨rfl, hnone⟩
  · rw [hs]
    exact .inr ⟨_, rfl, hback.simpleCycle⟩

/-- **Links of a table that is accepted lead in no circle.** -/
theorem acyclic_of_build {table : Table} (h : build tiers = .ok table) (id : String) :
    ¬ TransGen (LinksTo tiers) id id := by
  have hdeclared := declared_of_build h
  unfold build at h
  obtain ⟨_, -, h⟩ := bind_eq_ok.mp h
  obtain ⟨_, -, h⟩ := bind_eq_ok.mp h
  obtain ⟨_, hcheck, -⟩ := bind_eq_ok.mp h
  intro hcircle
  obtain ⟨p, hp⟩ := (transGen_iff hdeclared).mp ⟨id, hcircle⟩
  rcases checkCycles_cases hdeclared with ⟨-, hnone⟩ | ⟨cycle, herror, -⟩
  · exact hnone p hp
  · rw [herror] at hcheck
    cases hcheck

/-- Of tiers that can be met one by one, nothing but a circle is found before their windows are
looked at. -/
theorem build_eq_cyclicLinkage_iff (h : Declared tiers) {names : List String} :
    build tiers = .error (.cyclicLinkage names) ↔
      checkCycles tiers = .error (.cyclicLinkage names) := by
  obtain ⟨htiers, hlinks⟩ := declared_iff.mp h
  have hbuild : build tiers = (checkCycles tiers >>= fun _ => do
      return ⟨← tiers.zipIdx.mapM fun entry => resolve tiers entry.2 entry.1⟩) := by
    unfold build
    rw [htiers, hlinks]
    rfl
  rw [hbuild, bind_eq_error]
  constructor
  · rintro (hcycle | ⟨_, -, hresolve⟩)
    · exact hcycle
    · rcases bind_eq_error.mp hresolve with hresolve | ⟨quotas, -, hok⟩
      · obtain ⟨entry, -, hwindow⟩ := mapM_eq_error hresolve
        unfold resolve at hwindow
        split at hwindow <;> cases hwindow
      · cases hok
  · exact .inl

/-- **Tiers are refused for a circle exactly if there is one.**  For all tiers that can be met one
by one: they are refused for a circle of links exactly if their links lead in a circle, and the
names that are given with the refusal are such a circle, from one of its tiers to the same again and
with no other name twice.  The search points back only to tiers on its path.  However much deeper
than the number of tiers it could go, it ends as it does with that depth, and not for want of
depth. -/
theorem cyclicLinkage_of_declared (h : Declared tiers) :
    ((∃ names, build tiers = .error (.cyclicLinkage names)) ↔
      ∃ id, TransGen (LinksTo tiers) id id) ∧
    (∀ names, build tiers = .error (.cyclicLinkage names) → SimpleCycle (LinksTo tiers) names) ∧
    (∀ path node, search (linkedFrom tiers) tiers.length tiers.length =
      .error (.wayBack path node) → node ∈ path) ∧
    ∀ depth, tiers.length ≤ depth →
      search (linkedFrom tiers) depth tiers.length ≠ .error .tooDeep ∧
      search (linkedFrom tiers) depth tiers.length =
        search (linkedFrom tiers) tiers.length tiers.length := by
  simp only [build_eq_cyclicLinkage_iff h]
  refine ⟨⟨?_, ?_⟩, ?_, ?_, fun depth hdepth => ⟨?_, search_of_deeper (lt_of_leads h) hdepth⟩⟩
  · rintro ⟨names, hnames⟩
    rcases checkCycles_cases h with ⟨hok, -⟩ | ⟨cycle, -, hcycle⟩
    · rw [hok] at hnames
      cases hnames
    · exact (transGen_iff h).mpr hcycle.exists_transGen
  · intro hcircle
    obtain ⟨p, hp⟩ := (transGen_iff h).mp hcircle
    rcases checkCycles_cases h with ⟨-, hnone⟩ | ⟨cycle, herror, -⟩
    · exact absurd hp (hnone p)
    · exact ⟨_, herror⟩
  · intro names hnames
    rcases checkCycles_cases h with ⟨hok, -⟩ | ⟨cycle, herror, hcycle⟩
    · rw [hok] at hnames
      cases hnames
    · rw [herror] at hnames
      cases hnames
      exact simpleCycle_namesAt h hcycle
  · intro path node hsearch
    rcases search_cases (lt_of_leads h) le_rfl with ⟨⟨s, hs⟩, -⟩ | ⟨path', node', hs, hback⟩
    · rw [hs] at hsearch
      cases hsearch
    · rw [hs] at hsearch
      cases hsearch
      exact hback.mem
  · rcases search_cases (lt_of_leads h) hdepth with ⟨⟨s, hs⟩, -⟩ | ⟨path, node, hs, -⟩
    · simp [hs]
    · simp [hs]

/-- Two tiers are linked in a circle, and a third leads into it. -/
def circledTiers : List Tier :=
  [(Tier.perSecond "orders" 10).linkedTo "weight" 1,
    (Tier.perMinute "weight" 20).linkedTo "raw" 2 |>.linkedTo "spare" 1, Tier.perMinute "spare" 5,
    (Tier.perMinute "raw" 30).linkedTo "spare" 1 |>.linkedTo "weight" 3]

theorem cyclicLinkage_circledTiers : Declared circledTiers ∧
    build circledTiers = .error (.cyclicLinkage ["weight", "raw", "weight"]) ∧
    SimpleCycle (LinksTo circledTiers) ["weight", "raw", "weight"] ∧
    ∃ id, TransGen (LinksTo circledTiers) id id := by
  have h : Declared circledTiers := declared_iff.mpr ⟨rfl, rfl⟩
  have hbuild : build circledTiers = .error (.cyclicLinkage ["weight", "raw", "weight"]) := rfl
  obtain ⟨hiff, hcycle, -⟩ := cyclicLinkage_of_declared h
  exact ⟨h, hbuild, hcycle _ hbuild, hiff.mp ⟨_, hbuild⟩⟩

end SpotGateway.Table
