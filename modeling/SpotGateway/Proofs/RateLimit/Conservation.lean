import SpotGateway.Proofs.RateLimit.Ledger

/-!
# Nothing is counted twice or lost

A tier counts exactly what its ledger says that its running epoch was debited.

* `Ledger.debited_append`, `Ledger.debited_set` — how the ledger's own count changes;
* `Ledger.Balanced` — the invariant, with `Balanced.of_moves` for a step and `balanced_of_run` for a
  run;
* `Ledger.Accountable`, `Ledger.accountable_of_run` — at all times a tier counts what its epoch was
  debited, within its capacity, and reservations give back what they took and nothing else.
-/

set_option autoImplicit false

namespace SpotGateway

/-- A sum with one of its terms replaced. -/
theorem sum_map_set {α : Type} {f : α → Nat} {xs : List α} {n : Nat} {a b : α}
    (h : xs[n]? = some a) : ((xs.set n b).map f).sum + f a = (xs.map f).sum + f b := by
  induction xs generalizing n with
  | nil => cases h
  | cons x rest ih =>
    cases n with
    | zero =>
      cases h
      simp only [List.set_cons_zero, List.map_cons, List.sum_cons]
      omega
    | succ n =>
      have := ih (n := n) (by simpa using h)
      simp only [List.set_cons_succ, List.map_cons, List.sum_cons]
      omega

theorem le_sum_map {α : Type} (f : α → Nat) {xs : List α} {x : α} (h : x ∈ xs) :
    f x ≤ (xs.map f).sum :=
  List.single_le_sum (fun _ _ => Nat.zero_le _) _ (List.mem_map_of_mem h)

theorem Reservation.units_le_unitsOf {r : Reservation} {h : Holding} (hh : h ∈ r.holdings) :
    h.units ≤ r.unitsOf h.position h.epoch :=
  le_sum_map Holding.units (List.mem_filter.mpr ⟨hh, by simp⟩)

namespace Ledger

variable {table : Table} {owner : Nat} {now : Timestamp} {d d' : Ledger}

/-! ## What the ledger counts -/

theorem debited_append {e : Entry} (h : d'.entries = d.entries ++ [e]) (p epoch : Nat) :
    d'.debited table p epoch = d.debited table p epoch + e.weight table p epoch := by
  simp [debited, h]

theorem debited_set {number : Nat} {e : Entry} {fate : Fate} (he : d.entries[number]? = some e)
    (h : d'.entries = d.entries.set number { e with fate }) (p epoch : Nat) :
    d'.debited table p epoch + e.weight table p epoch =
      d.debited table p epoch + Entry.weight table { e with fate } p epoch := by
  rw [debited, h]
  exact sum_map_set he

/-- Nothing has been taken from an epoch that no reservation was admitted in. -/
theorem debited_eq_zero {p epoch : Nat} (h : ∀ e ∈ d.entries, e.epochs[p]? ≠ some epoch) :
    d.debited table p epoch = 0 := by
  refine List.sum_eq_zero fun weight hweight => ?_
  obtain ⟨e, he, rfl⟩ := List.mem_map.mp hweight
  simp [Entry.weight, h e he]

/-! ## The invariant -/

/-- What tiers count and what their ledger says go together. -/
structure Balanced (table : Table) (d : Ledger) : Prop where
  /-- No reservation was admitted in an epoch that is still to come. -/
  epoch_le : ∀ e ∈ d.entries, ∀ (p : Nat) (g : Gauge) (epoch : Nat),
    d.limiter.gauges[p]? = some g → e.epochs[p]? = some epoch → epoch ≤ g.epoch
  used : ∀ (p : Nat) (g : Gauge), d.limiter.gauges[p]? = some g →
    g.used = d.debited table p g.epoch
  /-- No epoch, of now or of the past, was debited more than the tier admits. -/
  debited_le : ∀ (p : Nat) (g : Gauge) (epoch : Nat), d.limiter.gauges[p]? = some g →
    d.debited table p epoch ≤ g.quota.capacity

theorem Balanced.opening (table : Table) (owner : Nat) :
    (opening owner table).Balanced table := by
  refine ⟨(fun e he => by cases he), ?_, fun p g epoch hg => Nat.zero_le _⟩
  intro p g hg
  simp only [Ledger.opening, Limiter.create, List.getElem?_map, Option.map_eq_some_iff] at hg
  obtain ⟨q, _, rfl⟩ := hg
  rfl

/-- A new epoch starts from nothing. -/
theorem Balanced.of_rolled (h : d.Balanced table)
    (hrolled : Rolled now d.limiter.gauges d'.limiter.gauges) (hentries : d'.entries = d.entries) :
    d'.Balanced table := by
  have hdebited : ∀ p epoch, d'.debited table p epoch = d.debited table p epoch := by
    intro p epoch
    rw [debited, hentries, debited]
  constructor
  · intro e he p g' epoch hg' hepoch
    obtain ⟨g, hg, heq⟩ := hrolled.getElem? hg'
    have hle := h.epoch_le e (hentries ▸ he) p g epoch hg hepoch
    rcases heq with rfl | rfl
    · exact hle
    · exact Nat.le_trans hle Gauge.epoch_le_roll
  · intro p g' hg'
    rw [hdebited]
    obtain ⟨g, hg, heq⟩ := hrolled.getElem? hg'
    rcases heq with rfl | rfl
    · exact h.used p _ hg
    · rcases Gauge.roll_eq now g with ⟨_, hroll⟩ | ⟨_, hroll⟩
      · rw [hroll]
        exact h.used p g hg
      · rw [hroll, debited_eq_zero]
        intro e he hepoch
        exact absurd (h.epoch_le e he p g _ hg hepoch) (Nat.not_succ_le_self g.epoch)
  · intro p g' epoch hg'
    rw [hdebited]
    obtain ⟨g, hg, heq⟩ := hrolled.getElem? hg'
    rcases heq with rfl | rfl
    · exact h.debited_le p _ epoch hg
    · rw [Gauge.quota_roll]
      exact h.debited_le p g epoch hg

/-- What a reservation takes is counted and written down alike. -/
theorem Balanced.of_charged (h : d.Balanced table) {e : Entry}
    (hcharged : ∀ p : Nat, d'.limiter.gauges[p]? =
      d.limiter.gauges[p]?.map (Gauge.charge (table.unitsAt e.tier p)))
    (hroom : ∀ (p : Nat) (g : Gauge), d.limiter.gauges[p]? = some g →
      table.unitsAt e.tier p ≤ g.remaining)
    (hentries : d'.entries = d.entries ++ [e])
    (hepochs : e.epochs = d'.limiter.gauges.map Gauge.epoch) (hfate : e.fate = .held) :
    d'.Balanced table := by
  have hweight : ∀ (p : Nat) (g : Gauge) (epoch : Nat), d.limiter.gauges[p]? = some g →
      e.weight table p epoch = if epoch = g.epoch then table.unitsAt e.tier p else 0 := by
    intro p g epoch hg
    have : e.epochs[p]? = some g.epoch := by
      simp [hepochs, hcharged p, hg]
    simp [Entry.weight, hfate, this, eq_comm]
  constructor
  · intro e' he' p g' epoch hg' hepoch
    rw [hcharged, Option.map_eq_some_iff] at hg'
    obtain ⟨g, hg, rfl⟩ := hg'
    rw [hentries, List.mem_append, List.mem_singleton] at he'
    rcases he' with he' | rfl
    · exact h.epoch_le e' he' p g epoch hg hepoch
    · rw [hepochs, List.getElem?_map, hcharged, hg] at hepoch
      cases hepoch
      exact Nat.le_refl _
  · intro p g' hg'
    rw [hcharged, Option.map_eq_some_iff] at hg'
    obtain ⟨g, hg, rfl⟩ := hg'
    rw [debited_append hentries, Gauge.epoch_charge, hweight p g _ hg, if_pos rfl, ← h.used p g hg]
    rfl
  · intro p g' epoch hg'
    rw [hcharged, Option.map_eq_some_iff] at hg'
    obtain ⟨g, hg, rfl⟩ := hg'
    have hle := h.debited_le p g epoch hg
    rw [debited_append hentries, hweight p g _ hg, Gauge.quota_charge]
    split
    · rename_i hepoch
      have hr := hroom p g hg
      have hused := h.used p g hg
      rw [Gauge.remaining] at hr
      rw [hepoch] at hle ⊢
      omega
    · omega

/-- What comes back is struck from both. -/
theorem Balanced.of_credited (h : d.Balanced table) {number : Nat} {e : Entry}
    (he : d.entries[number]? = some e)
    (hcredited : ∀ p : Nat, d'.limiter.gauges[p]? = d.limiter.gauges[p]?.map fun g =>
      { g with used := g.used - e.weight table p g.epoch })
    (hentries : d'.entries = d.entries.set number { e with fate := .released }) :
    d'.Balanced table := by
  have hdebited : ∀ p epoch, d'.debited table p epoch + e.weight table p epoch =
      d.debited table p epoch := by
    intro p epoch
    rw [debited_set he hentries]
    simp [Entry.weight]
  constructor
  · intro e' he' p g' epoch hg' hepoch
    rw [hcredited, Option.map_eq_some_iff] at hg'
    obtain ⟨g, hg, rfl⟩ := hg'
    rw [hentries] at he'
    obtain ⟨e₀, he₀, fate, rfl⟩ := origin_of_mem_set he he'
    exact h.epoch_le e₀ he₀ p g epoch hg hepoch
  · intro p g' hg'
    rw [hcredited, Option.map_eq_some_iff] at hg'
    obtain ⟨g, hg, rfl⟩ := hg'
    have := hdebited p g.epoch
    have := h.used p g hg
    show g.used - e.weight table p g.epoch = d'.debited table p g.epoch
    omega
  · intro p g' epoch hg'
    rw [hcredited, Option.map_eq_some_iff] at hg'
    obtain ⟨g, hg, rfl⟩ := hg'
    have := hdebited p epoch
    have := h.debited_le p g epoch hg
    show d'.debited table p epoch ≤ g.quota.capacity
    omega

/-- What is spent stays counted. -/
theorem Balanced.of_spent (h : d.Balanced table) {number : Nat} {e : Entry} {fate : Fate}
    (he : d.entries[number]? = some e) (hheld : e.fate = .held) (hspent : fate ≠ .released)
    (hgauges : d'.limiter.gauges = d.limiter.gauges)
    (hentries : d'.entries = d.entries.set number { e with fate }) : d'.Balanced table := by
  have hdebited : ∀ p epoch, d'.debited table p epoch = d.debited table p epoch := by
    intro p epoch
    have hset : d'.debited table p epoch + e.weight table p epoch =
        d.debited table p epoch + Entry.weight table { e with fate } p epoch :=
      debited_set he hentries p epoch
    have : Entry.weight table { e with fate } p epoch = e.weight table p epoch := by
      simp [Entry.weight, hheld, hspent]
    omega
  constructor
  · intro e' he' p g epoch hg hepoch
    rw [hgauges] at hg
    rw [hentries] at he'
    obtain ⟨e₀, he₀, fate, rfl⟩ := origin_of_mem_set he he'
    exact h.epoch_le e₀ he₀ p g epoch hg hepoch
  · intro p g hg
    rw [hdebited]
    exact h.used p g (hgauges ▸ hg)
  · intro p g epoch hg
    rw [hdebited]
    exact h.debited_le p g epoch (hgauges ▸ hg)

/-- **A step keeps the balance.** -/
theorem Balanced.of_moves (h : d.Balanced table) (hm : Moves table now d d') :
    d'.Balanced table := by
  cases hm with
  | look rolled entries => exact h.of_rolled rolled entries
  | reserve e gauges rolled charged room running entries issuedAt epochs fate genuine =>
    -- The gauges are looked at before they are charged.
    have hlooked : Balanced table ⟨{ d.limiter with gauges }, d.entries⟩ := h.of_rolled rolled rfl
    exact hlooked.of_charged charged room entries epochs fate
  | release number e entry held credited entries => exact h.of_credited entry credited entries
  | spend number e fate entry held spent gauges entries =>
    exact h.of_spent entry held spent gauges entries

theorem balanced_of_run (hr : table.Regular) {turns : List (Turn owner)}
    (h : (opening owner table).run turns = .ok d) : d.Kept table owner ∧ d.Balanced table :=
  run_keeps hr (fun _ _ _ _ _ hm hb => hb.of_moves hm) (Kept.opening table owner)
    (Balanced.opening table owner) h

/-! ## What tiers and reservations account for -/

theorem Balanced.weight_le_used (h : d.Balanced table) {e : Entry} (he : e ∈ d.entries) {p : Nat}
    {g : Gauge} (hg : d.limiter.gauges[p]? = some g) : e.weight table p g.epoch ≤ g.used := by
  rw [h.used p g hg]
  exact le_sum_map (fun e => e.weight table p g.epoch) he

theorem Balanced.units_le_used (h : d.Balanced table) {e : Entry} (he : e ∈ d.entries)
    (hgenuine : e.Genuine table owner) (hheld : e.fate = .held) {holding : Holding}
    (hh : holding ∈ e.reservation.holdings) {g : Gauge}
    (hg : d.limiter.gauges[holding.position]? = some g) (hepoch : g.epoch = holding.epoch) :
    holding.units ≤ g.used := by
  calc
    holding.units ≤ e.reservation.unitsOf holding.position holding.epoch :=
      Reservation.units_le_unitsOf hh
    _ = e.weight table holding.position g.epoch := by rw [hgenuine.unitsOf_eq_weight hheld, hepoch]
    _ ≤ g.used := h.weight_le_used he hg

/-- What the tiers of a limiter count, and what its reservations can change of that. -/
structure Accountable (table : Table) (owner : Nat) (d : Ledger) : Prop where
  quotas : d.limiter.gauges.map Gauge.quota = table.quotas
  /-- A tier counts what was taken from its epoch and has not been released. -/
  used : ∀ (p : Nat) (g : Gauge), d.limiter.gauges[p]? = some g →
    g.used = d.debited table p g.epoch ∧ g.used ≤ g.quota.capacity
  /-- What comes back has been counted, part by part. -/
  covered : ∀ e ∈ d.entries, e.fate = .held → ∀ holding ∈ e.reservation.holdings,
    ∀ g : Gauge, d.limiter.gauges[holding.position]? = some g → g.epoch = holding.epoch →
      holding.units ≤ g.used
  /-- A release takes off what the reservation was counted for, of the epochs that still run. -/
  release : ∀ e ∈ d.entries, e.fate = .held → ∀ (p : Nat) (g : Gauge),
    d.limiter.gauges[p]? = some g →
      ∃ used, used + e.weight table p g.epoch = g.used ∧
        (d.limiter.release e.reservation).gauges[p]? = some { g with used }
  /-- A release that comes too late changes nothing. -/
  release_late : ∀ e ∈ d.entries, e.fate = .held → ∀ (p : Nat) (g : Gauge),
    d.limiter.gauges[p]? = some g → e.epochs[p]? ≠ some g.epoch →
      (d.limiter.release e.reservation).gauges[p]? = some g
  /-- What is recorded stays counted, as what is never handed back does. -/
  record : ∀ r : Reservation, (d.limiter.record r).gauges = d.limiter.gauges
  /-- Reservations of other limiters change neither tiers nor statistics. -/
  stray : ∀ r : Reservation, r.limiter ≠ owner →
    d.limiter.release r = d.limiter ∧ d.limiter.record r = d.limiter

theorem Balanced.accountable (h : d.Balanced table) (hd : d.Kept table owner) :
    d.Accountable table owner := by
  have hrelease : ∀ e ∈ d.entries, e.fate = .held → ∀ (p : Nat) (g : Gauge),
      d.limiter.gauges[p]? = some g → (d.limiter.release e.reservation).gauges[p]? =
        some { g with used := g.used - e.weight table p g.epoch } := by
    intro e he hheld p g hg
    have hgenuine := hd.genuine e he
    rw [Limiter.getElem?_release (hgenuine.limiter.trans hd.id.symm), hg, Option.map_some,
      hgenuine.unitsOf_eq_weight hheld]
  constructor
  case quotas => exact hd.quotas
  case used =>
    intro p g hg
    have hused := h.used p g hg
    exact ⟨hused, hused ▸ h.debited_le p g g.epoch hg⟩
  case covered =>
    intro e he hheld holding hh g hg hepoch
    exact h.units_le_used he (hd.genuine e he) hheld hh hg hepoch
  case release =>
    intro e he hheld p g hg
    exact ⟨_, Nat.sub_add_cancel (h.weight_le_used he hg), hrelease e he hheld p g hg⟩
  case release_late =>
    intro e he hheld p g hg hlate
    rw [hrelease e he hheld p g hg]
    simp [Entry.weight, hlate]
  case record => exact fun r => Limiter.gauges_record _ r
  case stray =>
    intro r hr
    rw [← hd.id] at hr
    exact ⟨Limiter.release_of_ne hr, Limiter.record_of_ne hr⟩

/-- **Nothing is counted twice or lost.**  Over every accepted table, every run within the range of
dates has a result, and after every run, whatever its clock has shown, each tier counts exactly what
was taken from its epoch. -/
theorem accountable_of_run {tiers : List Tier} (hb : Table.build tiers = .ok table) (owner : Nat)
    (turns : List (Turn owner)) :
    ((∀ t ∈ turns, Fits table t) → ∃ d, (opening owner table).run turns = .ok d) ∧
      ∀ d, (opening owner table).run turns = .ok d → d.Accountable table owner := by
  have hr := Table.regular_of_build hb
  constructor
  · intro hfits
    exact run_isOk hr hfits (Kept.opening table owner) (InRange.opening owner table)
  · intro d h
    obtain ⟨hkept, hbalanced⟩ := balanced_of_run hr h
    exact hbalanced.accountable hkept

/-- Two tiers, one of them charged along with the other. -/
def linkedTiers : List Tier :=
  [(Tier.perSecond "orders" 2).linkedTo "weight" 5, Tier.perMinute "weight" 20]

def linkedTable : Table :=
  ⟨[⟨"orders", 2, .ofSeconds 1, [⟨0, 1⟩, ⟨1, 5⟩]⟩, ⟨"weight", 20, .ofSeconds 60, [⟨1, 1⟩]⟩]⟩

/-- The release comes after one of its two windows, when the next one is full already, and then the
clock goes back. -/
def lateRelease : List (Turn 1) :=
  [⟨⟨0, false⟩, .reserve "orders"⟩, ⟨⟨0, false⟩, .reserve "weight"⟩,
    ⟨⟨1500000000, false⟩, .reserve "orders"⟩, ⟨⟨1500000000, false⟩, .reserve "orders"⟩,
    ⟨⟨1500000000, false⟩, .release 0⟩, ⟨⟨700000000, false⟩, .record 1⟩]

/-- The window that is full stays full, and the one that still runs gets its units back. -/
theorem accountable_lateRelease : Table.build linkedTiers = .ok linkedTable ∧
    ∃ d, (opening 1 linkedTable).run lateRelease = .ok d ∧ d.Accountable linkedTable 1 ∧
      d.limiter.gauges.map Gauge.used = [2, 11] := by
  have hb : Table.build linkedTiers = .ok linkedTable := rfl
  obtain ⟨hok, haccountable⟩ := accountable_of_run hb 1 lateRelease
  obtain ⟨d, hd⟩ := hok (by decide)
  refine ⟨hb, d, hd, haccountable d hd, ?_⟩
  cases hd
  rfl

end Ledger

end SpotGateway
