import SpotGateway.Proofs.RateLimit.Regular
import SpotGateway.RateLimit.Limiter

/-!
# What the operations of a limiter do

Each operation is described position by position: what becomes of the gauge at a position of the
table, given the gauge that was there.

* `Gauge.isOver_roll`, `Gauge.roll_eq` — windows follow one after another;
* `getElem?_foldl_modify` — a run over positions, seen at one of them;
* `Rolled` — gauges that were looked at;
* `Limiter.reserve_cases` — all that a reservation can do;
* `Limiter.getElem?_release` — what handing back returns;
* `Limiter.admitted_of_reserve`, `Limiter.rejected_of_reserve`, `Limiter.stats_release`,
  `Limiter.stats_record` — statistics;
* `Limiter.rolled_usage`, `Limiter.rolled_usages` — looking;
* `Limiter.reserve_isOk`, `Limiter.usage_isOk`, `Limiter.usages_isOk` — within the range of dates
  each has an outcome.
-/

set_option autoImplicit false

namespace SpotGateway

/-! ## Gauges -/

namespace Gauge

variable {now : Timestamp} {g : Gauge}

theorem roll_eq (now : Timestamp) (g : Gauge) :
    g.isOver now = false ∧ g.roll now = g ∨
      g.isOver now = true ∧
        g.roll now = { g with start := some now, used := 0, epoch := g.epoch + 1 } := by
  unfold roll
  cases g.isOver now <;> simp

/-- A window runs once it was looked at. -/
theorem isOver_roll (hwindow : 0 < g.quota.window.nanos) : (g.roll now).isOver now = false := by
  rcases roll_eq now g with ⟨h, he⟩ | ⟨_, he⟩
  · rw [he, h]
  · rw [he]
    simp [isOver, Timestamp.since, Nat.ne_of_gt hwindow]

theorem start_of_not_isOver (h : g.isOver now = false) :
    ∃ start, g.start = some start ∧ now.since start < g.quota.window.nanos := by
  unfold isOver at h
  split at h
  · cases h
  · rename_i start hs
    exact ⟨start, hs, by simpa using h⟩

theorem since_of_isOver {start : Timestamp} (hs : g.start = some start)
    (h : g.isOver now = true) : (g.quota.window.nanos : Int) ≤ now.since start := by
  unfold isOver at h
  rw [hs] at h
  simpa using h

theorem epoch_le_roll : g.epoch ≤ (g.roll now).epoch := by
  rcases roll_eq now g with ⟨_, he⟩ | ⟨_, he⟩ <;> simp [he]

@[simp] theorem epoch_charge (units : Nat) (g : Gauge) : (g.charge units).epoch = g.epoch := rfl

theorem foldl_charge (charges : List Charge) (g : Gauge) :
    charges.foldl (fun g c => g.charge c.units) g = g.charge (charges.map Charge.units).sum := by
  induction charges generalizing g with
  | nil => rfl
  | cons c rest ih =>
    rw [List.foldl_cons, ih]
    simp [charge, Nat.add_assoc]

theorem foldl_credit (holdings : List Holding) (g : Gauge) :
    holdings.foldl (fun g h => g.credit h.units h.epoch) g =
      { g with
        used :=
          g.used - ((holdings.filter fun h => h.epoch = g.epoch).map Holding.units).sum } := by
  induction holdings generalizing g with
  | nil => rfl
  | cons h rest ih =>
    rw [List.foldl_cons, ih]
    by_cases he : g.epoch = h.epoch
    · simp [credit, he, Nat.sub_add_eq]
    · simp [credit, he, Ne.symm he]

/-- The window that runs, and one that starts now, end within the range of dates. -/
structure EndsInRange (now : Timestamp) (g : Gauge) : Prop where
  fresh : Timestamp.inRange (now.nanos + g.quota.window.nanos) = true
  running : ∀ start, g.start = some start →
    Timestamp.inRange (start.nanos + g.quota.window.nanos) = true

theorem EndsInRange.roll (h : g.EndsInRange now) : (g.roll now).EndsInRange now := by
  rcases roll_eq now g with ⟨_, he⟩ | ⟨_, he⟩
  · rwa [he]
  · rw [he]
    refine ⟨h.fresh, fun start hs => ?_⟩
    cases hs
    exact h.fresh

theorem EndsInRange.resetsAt_isOk (h : g.EndsInRange now) : ∃ t, g.resetsAt now = .ok t := by
  refine ⟨_, Timestamp.plus_eq_ok_iff.mpr ⟨?_, rfl⟩⟩
  cases hs : g.start with
  | none => exact h.fresh
  | some start => exact h.running start hs

end Gauge

/-! ## Runs over positions -/

/-- A run that changes one position after another, seen at one of them. -/
theorem getElem?_foldl_modify {α β : Type} (position : α → Nat) (f : α → β → β) (items : List α)
    (xs : List β) (p : Nat) :
    (items.foldl (fun xs a => xs.modify (position a) (f a)) xs)[p]? =
      xs[p]?.map fun x => (items.filter fun a => position a = p).foldl (fun x a => f a x) x := by
  induction items generalizing xs with
  | nil => simp
  | cons a rest ih =>
    rw [List.foldl_cons, ih, List.getElem?_modify]
    by_cases h : position a = p <;> simp [h, Function.comp_def]

/-- At most one charge is made at a position. -/
theorem charges_at {charges : List Charge} (h : (charges.map Charge.position).Pairwise (· < ·))
    (p : Nat) : (charges.filter fun c => c.position = p) = [] ∨
      ∃ c ∈ charges, c.position = p ∧ (charges.filter fun c => c.position = p) = [c] := by
  induction charges with
  | nil => exact Or.inl rfl
  | cons c rest ih =>
    rw [List.map_cons, List.pairwise_cons] at h
    by_cases hc : c.position = p
    · have hrest : (rest.filter fun c => c.position = p) = [] := by
        rw [List.filter_eq_nil_iff]
        intro d hd
        have := h.1 d.position (List.mem_map_of_mem hd)
        simp
        omega
      exact Or.inr ⟨c, List.mem_cons_self, hc, by simp [hc, hrest]⟩
    · rcases ih h.2 with hnil | ⟨d, hd, hp, heq⟩
      · exact Or.inl (by simp [hc, hnil])
      · exact Or.inr ⟨d, List.mem_cons_of_mem _ hd, hp, by simp [hc, heq]⟩

/-- Whether one of the charges is made at a position. -/
def concernsAt (charges : List Charge) (position : Nat) : Bool :=
  charges.any fun c => c.position = position

theorem unitsAt_of_not_concernsAt {charges : List Charge} {p : Nat}
    (h : concernsAt charges p = false) : unitsAt charges p = 0 := by
  have : (charges.filter fun c => c.position = p) = [] := by
    rw [List.filter_eq_nil_iff]
    intro c hc
    exact List.any_eq_false.mp h c hc
  simp [unitsAt, this]

/-- Each gauge is as it was, or as it is when it is looked at. -/
def Rolled (now : Timestamp) (gauges gauges' : List Gauge) : Prop :=
  ∀ p : Nat, gauges'[p]? = gauges[p]? ∨ gauges'[p]? = gauges[p]?.map (Gauge.roll now)

theorem Rolled.refl (now : Timestamp) (gauges : List Gauge) : Rolled now gauges gauges :=
  fun _ => Or.inl rfl

theorem Rolled.getElem? {now : Timestamp} {gauges gauges' : List Gauge}
    (h : Rolled now gauges gauges') {p : Nat} {g' : Gauge} (hg' : gauges'[p]? = some g') :
    ∃ g, gauges[p]? = some g ∧ (g' = g ∨ g' = g.roll now) := by
  rcases h p with he | he
  · rw [he] at hg'
    exact ⟨g', hg', Or.inl rfl⟩
  · rw [he, Option.map_eq_some_iff] at hg'
    obtain ⟨g, hg, rfl⟩ := hg'
    exact ⟨g, hg, Or.inr rfl⟩

/-- Units that a reservation holds of one epoch of the tier at a position. -/
def Reservation.unitsOf (r : Reservation) (position epoch : Nat) : Nat :=
  ((r.holdings.filter fun h => h.position = position && h.epoch = epoch).map Holding.units).sum

namespace Limiter

variable {now : Timestamp}

theorem getElem?_chargeAll (charges : List Charge) (gauges : List Gauge) (p : Nat) :
    (chargeAll charges gauges)[p]? = gauges[p]?.map (Gauge.charge (unitsAt charges p)) := by
  rw [chargeAll, getElem?_foldl_modify]
  simp only [Gauge.foldl_charge, unitsAt]

theorem getElem?_rollAll {charges : List Charge}
    (h : (charges.map Charge.position).Pairwise (· < ·)) (gauges : List Gauge) (p : Nat) :
    (rollAll now charges gauges)[p]? =
      if concernsAt charges p then gauges[p]?.map (Gauge.roll now) else gauges[p]? := by
  rw [rollAll, getElem?_foldl_modify Charge.position fun _ => Gauge.roll now]
  rcases charges_at h p with hnil | ⟨c, hc, hp, heq⟩
  · have : concernsAt charges p = false := by
      rw [concernsAt, List.any_eq_false]
      exact List.filter_eq_nil_iff.mp hnil
    simp [hnil, this]
  · have : concernsAt charges p = true := List.any_eq_true.mpr ⟨c, hc, by simp [hp]⟩
    simp [heq, this]

theorem rolled_rollAll {charges : List Charge}
    (h : (charges.map Charge.position).Pairwise (· < ·)) (gauges : List Gauge) :
    Rolled now gauges (rollAll now charges gauges) := by
  intro p
  rw [getElem?_rollAll h]
  split
  · exact Or.inr rfl
  · exact Or.inl rfl

/-- No tier stands in the way only if each has room for its charge. -/
theorem room_of_denial? {charges : List Charge} {gauges : List Gauge}
    (h : denial? now charges gauges = .ok none) :
    ∀ c ∈ charges, ∀ g, gauges[c.position]? = some g → c.units ≤ g.remaining := by
  induction charges with
  | nil => intro c hc; cases hc
  | cons c rest ih =>
    rw [denial?, List.foldlM_cons, bind_eq_ok] at h
    obtain ⟨worst, hstep, hrest⟩ := h
    cases worst with
    | some d =>
      -- Once a tier stands in the way, the run ends with one that does.
      have : (none : Option Denial).isSome := by
        refine foldlM_invariant (fun worst => worst.isSome = true) ?_ rfl hrest
        intro b a b' hb hok
        obtain ⟨w, rfl⟩ := Option.isSome_iff_exists.mp hb
        split at hok
        · split at hok
          · obtain ⟨d', _, hok⟩ := bind_eq_ok.mp hok
            rw [pure_eq_ok] at hok
            subst hok
            rfl
          · cases hok
            rfl
        · cases hok
          rfl
      cases this
    | none =>
      intro e he g hg
      rcases List.mem_cons.mp he with rfl | he
      · rw [hg] at hstep
        simp only at hstep
        split at hstep
        · obtain ⟨d', _, hstep⟩ := bind_eq_ok.mp hstep
          rw [pure_eq_ok] at hstep
          cases hstep
        · omega
      · exact ih hrest e he g hg

/-- All that a reservation can do: the tier is not known, or the gauges are looked at and one stands
in the way, or they are looked at and charged. -/
theorem reserve_cases {l l' : Limiter} {tier : String} {result : Except ThrottleError Reservation}
    (h : l.reserve tier now = .ok (l', result)) :
    (l.gauge? tier = none ∧ l' = l ∧ result = .error (.unknownTier tier)) ∨
    ∃ g, l.gauge? tier = some g ∧
      ((∃ d, denial? now g.quota.charges (rollAll now g.quota.charges l.gauges) = .ok (some d) ∧
        l' = { l with
          gauges := rollAll now g.quota.charges l.gauges
          stats := { l.stats with rejected := l.stats.rejected + 1 } } ∧
        result = .error (.exceeded d)) ∨
      (denial? now g.quota.charges (rollAll now g.quota.charges l.gauges) = .ok none ∧
        l' = { l with
          gauges := chargeAll g.quota.charges (rollAll now g.quota.charges l.gauges)
          stats := { l.stats with admitted := l.stats.admitted + 1 } } ∧
        result = .ok ⟨l.id, tier,
          holdingsOf g.quota.charges (rollAll now g.quota.charges l.gauges), now⟩)) := by
  unfold reserve at h
  split at h
  · rename_i hg
    cases h
    exact Or.inl ⟨hg, rfl, rfl⟩
  · rename_i g hg
    obtain ⟨worst, hworst, h⟩ := bind_eq_ok.mp h
    cases worst with
    | some d =>
      rw [pure_eq_ok] at h
      cases h
      exact Or.inr ⟨g, hg, Or.inl ⟨d, hworst, rfl, rfl⟩⟩
    | none =>
      rw [pure_eq_ok] at h
      cases h
      exact Or.inr ⟨g, hg, Or.inr ⟨hworst, rfl, rfl⟩⟩

/-- A reservation holds what was charged, of the epochs that were running. -/
theorem unitsOf_holdingsOf (charges : List Charge) (gauges : List Gauge) (id : Nat) (tier : String)
    (p epoch : Nat) :
    (Reservation.mk id tier (holdingsOf charges gauges) now).unitsOf p epoch =
      if gauges[p]?.map Gauge.epoch = some epoch then unitsAt charges p else 0 := by
  unfold Reservation.unitsOf holdingsOf unitsAt
  induction charges with
  | nil => simp
  | cons c rest ih =>
    simp only at ih
    by_cases hp : c.position = p
    · subst hp
      cases hg : gauges[c.position]? with
      | none => simpa [hg] using ih
      | some g =>
        by_cases he : g.epoch = epoch
        · simp only [hg, Option.map_some, he, if_true] at ih
          simp [hg, he, ih]
        · simp only [hg, Option.map_some, Option.some.injEq, he, if_false] at ih
          simp [hg, he, ih]
    · cases hg : gauges[c.position]? with
      | none => simpa [hg, hp] using ih
      | some g => simpa [hg, hp] using ih

theorem id_release (l : Limiter) (r : Reservation) : (l.release r).id = l.id := by
  unfold release
  split <;> rfl

/-- A reservation gives back what it holds of the epochs that still run. -/
theorem getElem?_release {l : Limiter} {r : Reservation} (h : r.limiter = l.id) (p : Nat) :
    (l.release r).gauges[p]? =
      l.gauges[p]?.map fun g => { g with used := g.used - r.unitsOf p g.epoch } := by
  have : (l.release r).gauges = r.holdings.foldl
      (fun gs h => gs.modify h.position (Gauge.credit h.units h.epoch)) l.gauges := by
    simp [release, issued, h]
  rw [this, getElem?_foldl_modify]
  simp only [Gauge.foldl_credit, List.filter_filter, Reservation.unitsOf]
  congr 3
  funext g
  simp only [Bool.and_comm]

theorem gauges_record (l : Limiter) (r : Reservation) : (l.record r).gauges = l.gauges := by
  unfold record
  split <;> rfl

theorem id_record (l : Limiter) (r : Reservation) : (l.record r).id = l.id := by
  unfold record
  split <;> rfl

/-- A reservation of another limiter is passed over. -/
theorem release_of_ne {l : Limiter} {r : Reservation} (h : r.limiter ≠ l.id) :
    l.release r = l := by
  simp [release, issued, h]

theorem record_of_ne {l : Limiter} {r : Reservation} (h : r.limiter ≠ l.id) :
    l.record r = l := by
  simp [record, issued, h]

theorem id_reserve {l l' : Limiter} {tier : String} {result : Except ThrottleError Reservation}
    (h : l.reserve tier now = .ok (l', result)) : l'.id = l.id := by
  rcases reserve_cases h with ⟨_, rfl, _⟩ | ⟨_, _, ⟨_, _, rfl, _⟩ | ⟨_, rfl, _⟩⟩ <;> rfl

theorem stats_release {l : Limiter} {r : Reservation} (h : r.limiter = l.id) :
    (l.release r).stats = { l.stats with released := l.stats.released + 1 } := by
  simp [release, issued, h]

theorem stats_record {l : Limiter} {r : Reservation} (h : r.limiter = l.id) :
    (l.record r).stats = { l.stats with recorded := l.stats.recorded + 1 } := by
  simp [record, issued, h]

theorem admitted_of_reserve {l l' : Limiter} {tier : String} {r : Reservation}
    (h : l.reserve tier now = .ok (l', .ok r)) : r.limiter = l.id ∧
      l'.stats = { l.stats with admitted := l.stats.admitted + 1 } := by
  rcases reserve_cases h with ⟨_, _, hr⟩ | ⟨_, _, ⟨_, _, _, hr⟩ | ⟨_, rfl, hr⟩⟩
  · cases hr
  · cases hr
  · cases hr
    exact ⟨rfl, rfl⟩

theorem rejected_of_reserve {l l' : Limiter} {tier : String} {e : ThrottleError}
    (h : l.reserve tier now = .ok (l', .error e)) :
    l' = l ∧ e = .unknownTier tier ∨
      (∃ d, e = .exceeded d) ∧
        l'.stats = { l.stats with rejected := l.stats.rejected + 1 } := by
  rcases reserve_cases h with ⟨_, hl, hr⟩ | ⟨_, _, ⟨d, _, rfl, hr⟩ | ⟨_, _, hr⟩⟩
  · cases hr
    exact Or.inl ⟨hl, rfl⟩
  · cases hr
    exact Or.inr ⟨⟨d, rfl⟩, rfl⟩
  · cases hr

theorem rolled_usage {l l' : Limiter} {tier : String} {result : Except ThrottleError Usage}
    (h : l.usage tier now = .ok (l', result)) :
    ∃ gauges, l' = { l with gauges } ∧ Rolled now l.gauges gauges := by
  unfold usage at h
  split at h
  · cases h
    exact ⟨l.gauges, rfl, fun _ => Or.inl rfl⟩
  · obtain ⟨u, _, h⟩ := bind_eq_ok.mp h
    rw [pure_eq_ok] at h
    cases h
    refine ⟨_, rfl, fun p => ?_⟩
    rw [List.getElem?_map]
    cases hg : l.gauges[p]? with
    | none => exact Or.inl rfl
    | some g =>
      simp only [Option.map_some]
      split
      · exact Or.inr rfl
      · exact Or.inl rfl

theorem rolled_usages {l l' : Limiter} {us : List Usage} (h : l.usages now = .ok (l', us)) :
    ∃ gauges, l' = { l with gauges } ∧ Rolled now l.gauges gauges := by
  unfold usages at h
  obtain ⟨us', _, h⟩ := bind_eq_ok.mp h
  rw [pure_eq_ok] at h
  cases h
  exact ⟨_, rfl, fun p => Or.inr (List.getElem?_map ..)⟩

/-- **Within the range of dates every reservation has an outcome.** -/
theorem reserve_isOk {l : Limiter} (tier : String)
    (hrise : ∀ g ∈ l.gauges, (g.quota.charges.map Charge.position).Pairwise (· < ·))
    (h : ∀ g ∈ l.gauges, g.EndsInRange now) : ∃ r, l.reserve tier now = .ok r := by
  unfold reserve
  cases hg : l.gauge? tier with
  | none => exact ⟨_, rfl⟩
  | some g =>
    have hrolled : Rolled now l.gauges (rollAll now g.quota.charges l.gauges) :=
      rolled_rollAll (hrise g (List.mem_of_find?_eq_some hg)) l.gauges
    have hdenial : ∃ worst, denial? now g.quota.charges
        (rollAll now g.quota.charges l.gauges) = .ok worst := by
      refine foldlM_isOk (fun c _ worst => ?_) none
      split
      · rename_i g' hg'
        split
        · obtain ⟨g₀, hg₀, heq⟩ := hrolled.getElem? hg'
          have hends₀ := h g₀ (List.mem_of_getElem? hg₀)
          have hends : g'.EndsInRange now := by
            rcases heq with rfl | rfl
            · exact hends₀
            · exact hends₀.roll
          obtain ⟨t, ht⟩ := hends.resetsAt_isOk
          rw [Gauge.refuse, ht]
          exact ⟨_, rfl⟩
        · exact ⟨_, rfl⟩
      · exact ⟨_, rfl⟩
    obtain ⟨worst, hworst⟩ := hdenial
    simp only [hworst]
    cases worst <;> exact ⟨_, rfl⟩

theorem usage_isOk {l : Limiter} (tier : String) (h : ∀ g ∈ l.gauges, g.EndsInRange now) :
    ∃ r, l.usage tier now = .ok r := by
  unfold usage
  cases hg : l.gauge? tier with
  | none => exact ⟨_, rfl⟩
  | some g =>
    obtain ⟨t, ht⟩ := (h g (List.mem_of_find?_eq_some hg)).roll.resetsAt_isOk
    simp only [Gauge.usage, ht]
    exact ⟨_, rfl⟩

theorem usages_isOk {l : Limiter} (h : ∀ g ∈ l.gauges, g.EndsInRange now) :
    ∃ r, l.usages now = .ok r := by
  have : ∃ us, (l.gauges.map (Gauge.roll now)).mapM (fun g => g.usage now) = .ok us := by
    apply mapM_isOk
    intro g' hg'
    obtain ⟨g, hg, rfl⟩ := List.mem_map.mp hg'
    obtain ⟨t, ht⟩ := (h g hg).roll.resetsAt_isOk
    rw [Gauge.usage, ht]
    exact ⟨_, rfl⟩
  obtain ⟨us, hus⟩ := this
  rw [usages, hus]
  exact ⟨_, rfl⟩

end Limiter

end SpotGateway
