import SpotGateway.Exchange.Profile
import SpotGateway.Proofs.RateLimit.Admission

/-!
# Limiters at ordinary times

A limiter of the exchange's tiers that was used at ordinary times alone always has an answer.

* `Timestamp.Ordinary` — instants that are not far from the epoch;
* `Gauge.Timely`, `Limiter.Timely` — windows that began at such instants;
* `Limiter.Timely.create` — a limiter that nothing was reserved from;
* `Limiter.Timely.reserve`, `release`, `record`, `usage`, `usages` — what each operation keeps;
* `Limiter.Timely.endsInRange` — no window ends outside the range of dates.
-/

set_option autoImplicit false

namespace SpotGateway

/-! ## Ordinary times -/

namespace Timestamp

/-- Eighty thousand years of the calendar, less than a third of the way to its ends. -/
def reach : Int := 80000 * 31556952 * perSecond

/-- The instant is within that reach of the epoch. -/
def Ordinary (t : Timestamp) : Prop := -reach ≤ t.nanos ∧ t.nanos ≤ reach

instance (t : Timestamp) : Decidable t.Ordinary :=
  inferInstanceAs (Decidable (-reach ≤ t.nanos ∧ t.nanos ≤ reach))

/-- What is three times as far from the epoch is still in the calendar. -/
theorem inRange_of_le_reach {nanos : Int} (hlow : -(3 * reach) ≤ nanos)
    (hhigh : nanos ≤ 3 * reach) : inRange nanos = true := by
  unfold reach at hlow hhigh
  unfold inRange first last
  unfold perSecond at *
  rw [Bool.and_eq_true, decide_eq_true_iff, decide_eq_true_iff]
  omega

end Timestamp

/-- A minute, the longest window of the exchange, in nanoseconds. -/
def minute : Nat := 60000000000

theorem Exchange.window_le_minute : ∀ t ∈ tiers, t.window.nanos ≤ minute := by decide

/-! ## Gauges -/

/-- The tier is one of the exchange's, and its window began at an ordinary time. -/
structure Gauge.Timely (g : Gauge) : Prop where
  rise : (g.quota.charges.map Charge.position).Pairwise (· < ·)
  window : g.quota.window.nanos ≤ minute
  started : ∀ start, g.start = some start → start.Ordinary

namespace Gauge.Timely

variable {g g' : Gauge} {now : Timestamp}

/-- What has been taken of a window does not matter. -/
theorem of_eq (h : g.Timely) (hquota : g'.quota = g.quota) (hstart : g'.start = g.start) :
    g'.Timely :=
  ⟨hquota ▸ h.rise, hquota ▸ h.window, hstart ▸ h.started⟩

theorem roll (h : g.Timely) (hnow : now.Ordinary) : (g.roll now).Timely := by
  rcases roll_eq now g with ⟨_, he⟩ | ⟨_, he⟩
  · rwa [he]
  · rw [he]
    refine ⟨h.rise, h.window, fun start hs => ?_⟩
    cases hs
    exact hnow

/-- Windows end within the range of dates. -/
theorem endsInRange (h : g.Timely) (hnow : now.Ordinary) : g.EndsInRange now := by
  have hwindow := h.window
  have hends : ∀ t : Timestamp, t.Ordinary →
      Timestamp.inRange (t.nanos + g.quota.window.nanos) = true := by
    rintro t ⟨hlow, hhigh⟩
    refine Timestamp.inRange_of_le_reach ?_ ?_ <;>
      simp only [Timestamp.reach, Timestamp.perSecond, minute] at * <;> omega
  exact ⟨hends now hnow, fun start hs => hends start (h.started start hs)⟩

end Gauge.Timely

/-! ## Limiters -/

/-- Every tier is one of the exchange's, with a window that began at an ordinary time. -/
def Limiter.Timely (l : Limiter) : Prop := ∀ g ∈ l.gauges, g.Timely

namespace Limiter.Timely

variable {l l' : Limiter} {now : Timestamp}

theorem create {id : Nat} {table : Table} (h : Table.build Exchange.tiers = .ok table) :
    (Limiter.create id table).Timely := by
  intro g hg
  obtain ⟨q, hq, rfl⟩ := List.mem_map.mp hg
  obtain ⟨t, ht, position, hresolve⟩ := Table.exists_resolve_of_build h q hq
  obtain ⟨hwindow, hrise⟩ := Table.resolve_eq_ok hresolve
  refine ⟨hrise, ?_, fun start hs => by cases hs⟩
  have := Exchange.window_le_minute t ht
  rwa [Gauge.fresh, hwindow]

theorem endsInRange (h : l.Timely) (hnow : now.Ordinary) : ∀ g ∈ l.gauges, g.EndsInRange now :=
  fun g hg => (h g hg).endsInRange hnow

theorem rise (h : l.Timely) :
    ∀ g ∈ l.gauges, (g.quota.charges.map Charge.position).Pairwise (· < ·) :=
  fun g hg => (h g hg).rise

/-- Looking at tiers. -/
theorem of_rolled (h : l.Timely) (hnow : now.Ordinary) {gauges : List Gauge}
    (hrolled : Rolled now l.gauges gauges) : ∀ g ∈ gauges, g.Timely := by
  intro g hg
  obtain ⟨p, hp⟩ := List.mem_iff_getElem?.mp hg
  obtain ⟨g₀, hg₀, heq⟩ := hrolled.getElem? hp
  have htimely := h g₀ (List.mem_of_getElem? hg₀)
  rcases heq with rfl | rfl
  · exact htimely
  · exact htimely.roll hnow

theorem reserve (h : l.Timely) (hnow : now.Ordinary) {tier : String}
    {result : Except ThrottleError Reservation} (hreserve : l.reserve tier now = .ok (l', result)) :
    l'.Timely := by
  rcases reserve_cases hreserve with ⟨_, rfl, _⟩ | ⟨g, hg, hcases⟩
  · exact h
  · have hrolled := h.of_rolled hnow
      (rolled_rollAll (h.rise g (List.mem_of_find?_eq_some hg)) l.gauges)
    rcases hcases with ⟨_, _, rfl, _⟩ | ⟨_, rfl, _⟩
    · exact hrolled
    · intro g' hg'
      obtain ⟨p, hp⟩ := List.mem_iff_getElem?.mp hg'
      rw [getElem?_chargeAll, Option.map_eq_some_iff] at hp
      obtain ⟨g₀, hg₀, rfl⟩ := hp
      exact (hrolled g₀ (List.mem_of_getElem? hg₀)).of_eq rfl rfl

theorem release (h : l.Timely) (r : Reservation) : (l.release r).Timely := by
  unfold Limiter.release
  split
  · intro g' hg'
    obtain ⟨p, hp⟩ := List.mem_iff_getElem?.mp hg'
    rw [getElem?_foldl_modify Holding.position fun h => Gauge.credit h.units h.epoch,
      Option.map_eq_some_iff] at hp
    obtain ⟨g₀, hg₀, rfl⟩ := hp
    rw [Gauge.foldl_credit]
    exact (h g₀ (List.mem_of_getElem? hg₀)).of_eq rfl rfl
  · exact h

theorem record (h : l.Timely) (r : Reservation) : (l.record r).Timely := by
  intro g hg
  rw [gauges_record] at hg
  exact h g hg

theorem usage (h : l.Timely) (hnow : now.Ordinary) {tier : String}
    {result : Except ThrottleError Usage} (husage : l.usage tier now = .ok (l', result)) :
    l'.Timely := by
  obtain ⟨gauges, rfl, hrolled⟩ := rolled_usage husage
  exact h.of_rolled hnow hrolled

theorem usages (h : l.Timely) (hnow : now.Ordinary) {us : List Usage}
    (husages : l.usages now = .ok (l', us)) : l'.Timely := by
  obtain ⟨gauges, rfl, hrolled⟩ := rolled_usages husages
  exact h.of_rolled hnow hrolled

end Limiter.Timely

end SpotGateway
