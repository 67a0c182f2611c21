import SpotGateway.Proofs.Distinct
import SpotGateway.Proofs.RateLimit.Ledger

/-!
# How tiers stand at an instant

A window that is over gives way to the next one only when its tier is looked at.  How the tiers of a
limiter stand at an instant is what is seen once all of them were looked at then, and every answer
of that instant can be read off it.

* `Limiter.lookedAt` — the limiter once all its tiers were looked at;
* `Gauge.usage_eq_ok_iff`, `Limiter.usages_eq_ok_iff` — what is shown of tiers;
* `Limiter.Shows`, `Limiter.Shows.of_usages` — tiers are shown alike by themselves and together;
* `Limiter.verdict`, `Limiter.verdict_congr` — what becomes of a reservation, and what it depends
  on;
* `Limiter.Alike` — limiters that stand the same: they show the same and have the same verdicts,
  and a refusal leaves the limiter like this.
-/

set_option autoImplicit false

namespace SpotGateway

/-! ## Looking twice -/

namespace Gauge

variable {now : Timestamp} {g : Gauge}

/-- A tier but for its epoch, which nothing that is admitted or shown depends on. -/
def bare (g : Gauge) : Gauge := { g with epoch := 0 }

theorem roll_roll (hwindow : 0 < g.quota.window.nanos) : (g.roll now).roll now = g.roll now :=
  roll_of_not_isOver (isOver_roll hwindow)

/-- The window that runs once the tier was looked at. -/
theorem start_roll (now : Timestamp) (hwindow : 0 < g.quota.window.nanos) :
    ∃ start, (g.roll now).start = some start ∧ now.nanos < start.nanos + g.quota.window.nanos := by
  have hruns : (g.roll now).isOver now = false := isOver_roll hwindow
  obtain ⟨start, hstart, hsince⟩ := start_of_not_isOver hruns
  rw [Timestamp.since, quota_roll] at hsince
  exact ⟨start, hstart, by omega⟩

/-- What is shown of a tier: its counts, and how long its window still runs. -/
theorem usage_eq_ok_iff {u : Usage} :
    g.usage now = .ok u ↔ ∃ resetsAt, g.resetsAt now = .ok resetsAt ∧
      u = ⟨g.quota.id, g.used, g.quota.capacity, g.remaining,
        .ofDifference (resetsAt.since now)⟩ := by
  unfold usage
  simp only [bind_eq_ok, pure_eq_ok, eq_comm (b := u)]

/-- When the window is over that runs once the tier was looked at. -/
theorem resetsAt_roll_eq_ok_iff (hwindow : 0 < g.quota.window.nanos) {t : Timestamp} :
    (g.roll now).resetsAt now = .ok t ↔ ∃ start, (g.roll now).start = some start ∧
      Timestamp.inRange (start.nanos + g.quota.window.nanos) = true ∧
      t = ⟨start.nanos + g.quota.window.nanos, false⟩ := by
  obtain ⟨start, hstart, _⟩ := start_roll now hwindow
  rw [resetsAt, hstart, Timestamp.plus_eq_ok_iff, quota_roll]
  simp

end Gauge

namespace Limiter

variable {l l' : Limiter} {now : Timestamp} {tier : String}

/-- The tiers of a limiter. -/
def table (l : Limiter) : Table := ⟨l.gauges.map Gauge.quota⟩

/-- The limiter once all its tiers were looked at. -/
def lookedAt (l : Limiter) (now : Timestamp) : Limiter :=
  { l with gauges := l.gauges.map (Gauge.roll now) }

theorem window_pos (h : l.table.Regular) : ∀ g ∈ l.gauges, 0 < g.quota.window.nanos :=
  fun _ hg => h.window_pos _ (List.mem_map_of_mem hg)

theorem charges_rise (h : l.table.Regular) :
    ∀ g ∈ l.gauges, (g.quota.charges.map Charge.position).Pairwise (· < ·) :=
  fun _ hg => h.charges_rise _ (List.mem_map_of_mem hg)

theorem getElem?_lookedAt (l : Limiter) (now : Timestamp) (p : Nat) :
    (l.lookedAt now).gauges[p]? = l.gauges[p]?.map (Gauge.roll now) :=
  List.getElem?_map ..

theorem rolled_lookedAt (l : Limiter) (now : Timestamp) :
    Rolled now l.gauges (l.lookedAt now).gauges :=
  fun p => Or.inr (l.getElem?_lookedAt now p)

theorem quota?_table (l : Limiter) (tier : String) :
    l.table.quota? tier = (l.gauge? tier).map Gauge.quota := by
  rw [Table.quota?, table, List.find?_map]
  rfl

/-! ## What is shown -/

theorem usages_eq_ok_iff {us : List Usage} : l.usages now = .ok (l', us) ↔
    l' = l.lookedAt now ∧ (l.lookedAt now).gauges.map (fun g => g.usage now) = us.map .ok := by
  unfold usages
  rw [bind_eq_ok]
  constructor
  · rintro ⟨us', hus, h⟩
    rw [pure_eq_ok] at h
    cases h
    exact ⟨rfl, mapM_eq_ok_iff.mp hus⟩
  · rintro ⟨rfl, hus⟩
    exact ⟨us, mapM_eq_ok_iff.mpr hus, rfl⟩

/-- Each tier is shown in its place. -/
theorem getElem?_of_usages {us : List Usage} (h : l.usages now = .ok (l', us)) (p : Nat) :
    us[p]?.map .ok = (l.lookedAt now).gauges[p]?.map fun g => g.usage now := by
  rw [← List.getElem?_map, ← (usages_eq_ok_iff.mp h).2, List.getElem?_map]

theorem exists_usage {us : List Usage} (h : l.usages now = .ok (l', us)) {p : Nat} {g : Gauge}
    (hg : (l.lookedAt now).gauges[p]? = some g) : ∃ u, us[p]? = some u ∧ g.usage now = .ok u := by
  have hshown := getElem?_of_usages h p
  rw [hg, Option.map_some, Option.map_eq_some_iff] at hshown
  obtain ⟨u, hu, hok⟩ := hshown
  exact ⟨u, hu, hok.symm⟩

theorem exists_gauge {us : List Usage} (h : l.usages now = .ok (l', us)) {p : Nat} {u : Usage}
    (hu : us[p]? = some u) : ∃ g, l.gauges[p]? = some g ∧ (g.roll now).usage now = .ok u := by
  have hshown := getElem?_of_usages h p
  rw [hu, Option.map_some, getElem?_lookedAt, Option.map_map, eq_comm,
    Option.map_eq_some_iff] at hshown
  exact hshown

/-- These are shown of all tiers, in the order of the table, and of each by its name. -/
structure Shows (l : Limiter) (now : Timestamp) (us : List Usage) : Prop where
  usages : l.usages now = .ok (l.lookedAt now, us)
  tiers : us.map Usage.tier = l.table.ids
  usage : ∀ u ∈ us, ∃ l', l.usage u.tier now = .ok (l', .ok u)

theorem tiers_of_usages {us : List Usage} (h : l.usages now = .ok (l', us)) :
    us.map Usage.tier = l.table.ids := by
  apply List.ext_getElem?
  intro p
  have hshown := getElem?_of_usages h p
  rw [getElem?_lookedAt, Option.map_map] at hshown
  rw [Table.ids, table, List.map_map, List.getElem?_map, List.getElem?_map]
  cases hg : l.gauges[p]? with
  | none =>
    rw [hg, Option.map_none, Option.map_eq_none_iff] at hshown
    rw [hshown]
    rfl
  | some g =>
    rw [hg, Option.map_some, Option.map_eq_some_iff] at hshown
    obtain ⟨u, hu, hok⟩ := hshown
    obtain ⟨_, _, rfl⟩ := Gauge.usage_eq_ok_iff.mp hok.symm
    rw [hu, Option.map_some, Option.map_some, Gauge.quota_roll]
    rfl

/-- Where names tell tiers apart, a tier is shown by itself as it is among all. -/
theorem Shows.of_usages {us : List Usage} (hnames : l.table.ids.Nodup)
    (h : l.usages now = .ok (l.lookedAt now, us)) : l.Shows now us := by
  refine ⟨h, tiers_of_usages h, fun u hu => ?_⟩
  obtain ⟨p, hp⟩ := List.mem_iff_getElem?.mp hu
  obtain ⟨g, hg, hok⟩ := exists_gauge h hp
  have hid : g.quota.id = u.tier := by
    obtain ⟨_, _, rfl⟩ := Gauge.usage_eq_ok_iff.mp hok
    rw [Gauge.quota_roll]
  have hnodup : (l.gauges.map fun g => g.quota.id).Nodup := by
    simpa [Table.ids, table, Function.comp_def] using hnames
  have hfind : l.gauge? u.tier = some g :=
    (find?_name_eq_some_iff hnodup).mpr ⟨List.mem_of_getElem? hg, hid⟩
  simp only [Limiter.usage, hfind, hok]
  exact ⟨_, rfl⟩

/-! ## What becomes of a reservation -/

/-- Refusals depend on the tiers that are charged alone, and not on their epochs. -/
theorem denial?_congr {charges : List Charge} {gauges gauges' : List Gauge}
    (h : ∀ c ∈ charges,
      gauges'[c.position]?.map Gauge.bare = gauges[c.position]?.map Gauge.bare) :
    denial? now charges gauges' = denial? now charges gauges := by
  have hbare : ∀ gauges : List Gauge,
      denial? now charges gauges = denial? now charges (gauges.map Gauge.bare) := by
    intro gauges
    unfold denial?
    congr 1
    funext worst c
    rw [List.getElem?_map]
    cases gauges[c.position]? <;> rfl
  rw [hbare gauges, hbare gauges']
  unfold denial?
  refine foldlM_congr fun c hc worst => ?_
  rw [List.getElem?_map, List.getElem?_map, h c hc]

/-- It makes no difference to a charge whether other tiers were looked at. -/
theorem getElem?_rollAll_position {charges : List Charge}
    (hrise : (charges.map Charge.position).Pairwise (· < ·)) (l : Limiter) {c : Charge}
    (hc : c ∈ charges) : (rollAll now charges l.gauges)[c.position]? =
      (l.lookedAt now).gauges[c.position]? := by
  have hconcerns : concernsAt charges c.position = true :=
    List.any_eq_true.mpr ⟨c, hc, by simp⟩
  rw [getElem?_rollAll hrise, if_pos hconcerns, getElem?_lookedAt]

theorem denial?_rollAll (h : l.table.Regular) {g : Gauge} (hg : l.gauge? tier = some g) :
    denial? now g.quota.charges (rollAll now g.quota.charges l.gauges) =
      denial? now g.quota.charges (l.lookedAt now).gauges := by
  have hrise := charges_rise h g (List.mem_of_find?_eq_some hg)
  exact denial?_congr fun c hc => by rw [getElem?_rollAll_position hrise l hc]

/-- What becomes of a reservation: why it is refused, or nothing if it is admitted. -/
def verdict (l : Limiter) (tier : String) (now : Timestamp) : Checked (Option ThrottleError) := do
  let (_, result) ← l.reserve tier now
  return match result with
    | .ok _ => none
    | .error e => some e

/-- What becomes of a reservation is read off how the tiers stand. -/
theorem verdict_eq (h : l.table.Regular) : l.verdict tier now =
    match l.table.quota? tier with
    | none => .ok (some (.unknownTier tier))
    | some q => do
      return (← denial? now q.charges (l.lookedAt now).gauges).map ThrottleError.exceeded := by
  unfold verdict reserve
  rw [quota?_table]
  cases hg : l.gauge? tier with
  | none => rfl
  | some g =>
    simp only [Option.map_some]
    rw [denial?_rollAll h hg]
    cases denial? now g.quota.charges (l.lookedAt now).gauges with
    | error fault => rfl
    | ok worst => cases worst <;> rfl

/-- **Verdicts depend on how the tiers stand that are charged, and not on their epochs.** -/
theorem verdict_congr (h : l.table.Regular) (htable : l'.table = l.table)
    (hsame : ∀ q, l.table.quota? tier = some q → ∀ c ∈ q.charges,
      (l'.lookedAt now).gauges[c.position]?.map Gauge.bare =
        (l.lookedAt now).gauges[c.position]?.map Gauge.bare) :
    l'.verdict tier now = l.verdict tier now := by
  rw [verdict_eq h, verdict_eq (htable ▸ h), htable]
  cases hq : l.table.quota? tier with
  | none => rfl
  | some q => simp only [denial?_congr (hsame q hq)]

theorem verdict_eq_error_iff {e : ThrottleError} :
    l.verdict tier now = .ok (some e) ↔ ∃ l', l.reserve tier now = .ok (l', .error e) := by
  unfold verdict
  rw [bind_eq_ok]
  constructor
  · rintro ⟨⟨l', result⟩, hreserve, h⟩
    cases result with
    | ok r => cases h
    | error e' =>
      cases h
      exact ⟨l', hreserve⟩
  · rintro ⟨l', hreserve⟩
    exact ⟨_, hreserve, rfl⟩

/-! ## Limiters that stand the same -/

/-- At that instant, the tiers of both limiters stand the same. -/
def Alike (now : Timestamp) (l l' : Limiter) : Prop :=
  (l'.lookedAt now).gauges = (l.lookedAt now).gauges

theorem Alike.trans {l'' : Limiter} (h : Alike now l l') (h' : Alike now l' l'') :
    Alike now l l'' :=
  Eq.trans h' h

theorem Alike.table_eq (h : Alike now l l') : l'.table = l.table := by
  have htable : ∀ l : Limiter, l.table = (l.lookedAt now).table := by
    intro l
    simp [table, lookedAt, Function.comp_def]
  rw [htable l', htable l, table, table, h]

/-- **Limiters whose tiers stand the same show the same.** -/
theorem Alike.usages (h : Alike now l l') {us : List Usage}
    (hus : l.usages now = .ok (l.lookedAt now, us)) :
    l'.usages now = .ok (l'.lookedAt now, us) := by
  refine usages_eq_ok_iff.mpr ⟨rfl, ?_⟩
  rw [h]
  exact (usages_eq_ok_iff.mp hus).2

theorem Alike.shows (h : Alike now l l') (hnames : l.table.ids.Nodup) {us : List Usage}
    (hshows : l.Shows now us) : l'.Shows now us :=
  .of_usages (h.table_eq ▸ hnames) (h.usages hshows.usages)

theorem Alike.verdict_eq (h : Alike now l l') (hreg : l.table.Regular) :
    l'.verdict tier now = l.verdict tier now :=
  verdict_congr hreg h.table_eq fun _ _ _ _ => by rw [h]

/-- However often tiers were looked at, they stand the same. -/
theorem Alike.of_rolled (hwindow : ∀ g ∈ l.gauges, 0 < g.quota.window.nanos)
    (h : Rolled now l.gauges l'.gauges) : Alike now l l' := by
  apply List.ext_getElem?
  intro p
  rw [getElem?_lookedAt, getElem?_lookedAt]
  rcases h p with he | he
  · rw [he]
  · rw [he]
    cases hg : l.gauges[p]? with
    | none => rfl
    | some g =>
      simp only [Option.map_some]
      rw [Gauge.roll_roll (hwindow g (List.mem_of_getElem? hg))]

/-- **A refusal leaves all tiers as they stand.** -/
theorem alike_of_refused (h : l.table.Regular) {e : ThrottleError}
    (hrefused : l.reserve tier now = .ok (l', .error e)) : Alike now l l' := by
  refine .of_rolled (window_pos h) ?_
  rcases reserve_cases hrefused with ⟨_, rfl, _⟩ | ⟨g, hg, ⟨_, _, rfl, _⟩ | ⟨_, _, hr⟩⟩
  · exact Rolled.refl _ _
  · exact rolled_rollAll (charges_rise h g (List.mem_of_find?_eq_some hg)) _
  · cases hr

end Limiter

/-! ## Limiters along a run -/

namespace Ledger

variable {table : Table} {owner : Nat} {d : Ledger} {now : Timestamp}

theorem Kept.table_eq (hd : d.Kept table owner) : d.limiter.table = table := by
  rw [Limiter.table, hd.quotas]

theorem Kept.regular (hd : d.Kept table owner) (hr : table.Regular) : d.limiter.table.Regular :=
  hd.table_eq ▸ hr

end Ledger

end SpotGateway
