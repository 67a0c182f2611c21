import SpotGateway.Proofs.RateLimit.Standing
import SpotGateway.Proofs.RateLimit.Windows

/-!
# Admission and refusal

A reservation is admitted exactly if each tier that it charges shows room for its charge.  If some
do not, the refusal names the one whose window is over last.

* `Refuses`, `Latest` — a charge that finds no room, and the one that finds none longest;
* `Limiter.found_of_denial?` — what the search along the charges of a tier finds;
* `Usage.taking`, `Limiter.Blames` — what is shown after a charge, and what a refusal says;
* `Ledger.admission_of_run` — who is admitted, what is taken, and what a refusal names, in every
  state that a limiter can be in.
-/

set_option autoImplicit false

namespace SpotGateway

variable {now : Timestamp} {gauges : List Gauge} {charges : List Charge} {c : Charge} {d : Denial}

/-! ## The tier that is full longest -/

/-- The tier that the charge is made on has no room for it, and refuses like this. -/
def Refuses (now : Timestamp) (gauges : List Gauge) (c : Charge) (d : Denial) : Prop :=
  ∃ g, gauges[c.position]? = some g ∧ g.remaining < c.units ∧ g.refuse now c.units = .ok d

theorem Refuses.unique {d' : Denial} (h : Refuses now gauges c d) (h' : Refuses now gauges c d') :
    d = d' := by
  obtain ⟨g, hg, _, hd⟩ := h
  obtain ⟨g', hg', _, hd'⟩ := h'
  rw [hg] at hg'
  cases hg'
  rw [hd] at hd'
  cases hd'
  rfl

/-- Of the refusals of the charges this is the one that stands longest, and the first of those. -/
structure Latest (now : Timestamp) (gauges : List Gauge) (charges : List Charge) (c : Charge)
    (d : Denial) : Prop where
  mem : c ∈ charges
  refuses : Refuses now gauges c d
  last : ∀ c' ∈ charges, ∀ d', Refuses now gauges c' d' → d'.retryAt ≤ d.retryAt
  first : ∀ c' ∈ charges, c'.position < c.position → ∀ d', Refuses now gauges c' d' →
    d'.retryAt < d.retryAt

/-- One more charge, after the others, which finds room or does not lack it longer. -/
theorem Latest.append {e : Charge} {w : Denial} (h : Latest now gauges charges e w)
    (hbefore : ∀ b ∈ charges, b.position < c.position)
    (hle : ∀ d, Refuses now gauges c d → d.retryAt ≤ w.retryAt) :
    Latest now gauges (charges ++ [c]) e w := by
  refine ⟨List.mem_append_left _ h.mem, h.refuses, ?_, ?_⟩
  · intro c' hc' d' hd'
    rcases List.mem_append.mp hc' with hc' | hc'
    · exact h.last c' hc' d' hd'
    · rw [List.mem_singleton.mp hc'] at hd'
      exact hle d' hd'
  · intro c' hc' hlt d' hd'
    rcases List.mem_append.mp hc' with hc' | hc'
    · exact h.first c' hc' hlt d' hd'
    · have := hbefore e h.mem
      rw [List.mem_singleton.mp hc'] at hlt
      omega

/-- One more charge, after the others, which lacks room longest. -/
theorem Latest.of_below (hrefuses : Refuses now gauges c d)
    (hbelow : ∀ b ∈ charges, ∀ d', Refuses now gauges b d' → d'.retryAt < d.retryAt) :
    Latest now gauges (charges ++ [c]) c d := by
  refine ⟨List.mem_append_right _ List.mem_cons_self, hrefuses, ?_, ?_⟩
  · intro c' hc' d' hd'
    rcases List.mem_append.mp hc' with hc' | hc'
    · exact Int.le_of_lt (hbelow c' hc' d' hd')
    · rw [List.mem_singleton.mp hc'] at hd'
      rw [hd'.unique hrefuses]
      exact Int.le_refl _
  · intro c' hc' hlt d' hd'
    rcases List.mem_append.mp hc' with hc' | hc'
    · exact hbelow c' hc' d' hd'
    · rw [List.mem_singleton.mp hc'] at hlt
      omega

namespace Limiter

/-- What has been found along charges: that all tiers have room, or the refusal that stands
longest. -/
def Found (now : Timestamp) (gauges : List Gauge) (charges : List Charge) : Option Denial → Prop
  | none => ∀ c ∈ charges, ∀ g, gauges[c.position]? = some g → c.units ≤ g.remaining
  | some d => ∃ c, Latest now gauges charges c d

theorem Found.of_room {worst : Option Denial} (h : Found now gauges charges worst)
    (hbefore : ∀ b ∈ charges, b.position < c.position)
    (hroom : ∀ g, gauges[c.position]? = some g → c.units ≤ g.remaining) :
    Found now gauges (charges ++ [c]) worst := by
  cases worst with
  | none =>
    intro e he
    rcases List.mem_append.mp he with he | he
    · exact h e he
    · rw [List.mem_singleton.mp he]
      exact hroom
  | some w =>
    obtain ⟨e, he⟩ := h
    refine ⟨e, he.append hbefore ?_⟩
    rintro d ⟨g, hg, hfull, _⟩
    have := hroom g hg
    omega

theorem Found.of_refuses {worst : Option Denial} (h : Found now gauges charges worst)
    (hbefore : ∀ b ∈ charges, b.position < c.position) (hrefuses : Refuses now gauges c d) :
    Found now gauges (charges ++ [c]) (some (laterDenial worst d)) := by
  cases worst with
  | none =>
    -- The tiers before had room, so that none of them refuses.
    refine ⟨c, .of_below hrefuses ?_⟩
    rintro b hb d' ⟨g, hg, hfull, _⟩
    have := h b hb g hg
    omega
  | some w =>
    obtain ⟨e, he⟩ := h
    rw [laterDenial]
    split
    · rename_i hlater
      exact ⟨c, .of_below hrefuses fun b hb d' hd' =>
        Int.lt_of_le_of_lt (he.last b hb d' hd') hlater⟩
    · rename_i hnot
      refine ⟨e, he.append hbefore fun d' hd' => ?_⟩
      rw [hd'.unique hrefuses]
      exact Int.not_lt.mp hnot

/-- **The search finds the refusal that stands longest.** -/
theorem found_of_denial? (hrise : (charges.map Charge.position).Pairwise (· < ·))
    {worst : Option Denial} (h : denial? now charges gauges = .ok worst) :
    Found now gauges charges worst := by
  unfold denial? at h
  have hstart : Found now gauges [] none := fun c hc => by cases hc
  refine foldlM_along (Found now gauges) hstart ?_ h
  intro seen c rest found next hcharges hfound hstep
  have hbefore : ∀ b ∈ seen, b.position < c.position := by
    intro b hb
    rw [hcharges, List.map_append, List.pairwise_append] at hrise
    exact hrise.2.2 _ (List.mem_map_of_mem hb) _ (List.mem_map_of_mem List.mem_cons_self)
  split at hstep
  · rename_i g hg
    split at hstep
    · rename_i hfull
      obtain ⟨d, hd, hstep⟩ := bind_eq_ok.mp hstep
      rw [pure_eq_ok] at hstep
      subst hstep
      exact hfound.of_refuses hbefore ⟨g, hg, hfull, hd⟩
    · rename_i hroom
      cases hstep
      refine hfound.of_room hbefore fun g' hg' => ?_
      rw [hg] at hg'
      cases hg'
      omega
  · rename_i hg
    cases hstep
    refine hfound.of_room hbefore fun g' hg' => ?_
    rw [hg] at hg'
    cases hg'

/-- Where all tiers have room, none refuses. -/
theorem denial?_of_room
    (h : ∀ c ∈ charges, ∀ g, gauges[c.position]? = some g → c.units ≤ g.remaining) :
    denial? now charges gauges = .ok none := by
  unfold denial?
  refine foldlM_fixed fun c hc => ?_
  split
  · rename_i g hg
    rw [if_neg (Nat.not_lt.mpr (h c hc g hg))]
  · rfl

end Limiter

/-! ## What a refusal says -/

/-- The denial names the tier that the charge is made on, shown like this: it has no room for the
charge, and no other tier that lacks room is full longer, nor as long if it comes first. -/
structure Blames (now : Timestamp) (us : List Usage) (charges : List Charge) (d : Denial)
    (c : Charge) (u : Usage) : Prop where
  mem : c ∈ charges
  shown : us[c.position]? = some u
  full : u.remaining < c.units
  tier : d.tier = u.tier
  requested : d.requested = c.units
  remaining : d.remaining = u.remaining
  capacity : d.capacity = u.capacity
  /-- The tier's window is over then. -/
  retryAt : now.plus u.resetsIn.nanos = .ok d.retryAt
  retryAfter : d.retryAfter = u.resetsIn
  retryAfter_eq : (d.retryAfter.nanos : Int) = d.retryAt.since now
  retryAfter_pos : 0 < d.retryAfter.nanos
  last : ∀ c' ∈ charges, ∀ u', us[c'.position]? = some u' → u'.remaining < c'.units →
    u'.resetsIn.nanos ≤ u.resetsIn.nanos
  first : ∀ c' ∈ charges, c'.position < c.position → ∀ u', us[c'.position]? = some u' →
    u'.remaining < c'.units → u'.resetsIn.nanos < u.resetsIn.nanos

theorem Timestamp.nanos_of_plus {t u : Timestamp} {nanos : Int} (h : t.plus nanos = .ok u) :
    u.nanos = t.nanos + nanos := by
  rw [(plus_eq_ok_iff.mp h).2]

/-- A tier that is shown refuses by what is shown of it. -/
theorem Gauge.refuse_of_usage {g : Gauge} {u : Usage} (hwindow : 0 < g.quota.window.nanos)
    (hu : (g.roll now).usage now = .ok u) (units : Nat) :
    ∃ retryAt, (g.roll now).refuse now units =
        .ok ⟨u.tier, units, u.remaining, u.capacity, u.resetsIn, retryAt⟩ ∧
      now.plus u.resetsIn.nanos = .ok retryAt ∧ 0 < u.resetsIn.nanos := by
  obtain ⟨start, hstart, hahead⟩ := start_roll now hwindow
  obtain ⟨retryAt, hresets, hshown⟩ := usage_eq_ok_iff.mp hu
  obtain ⟨start', hstart', hrange, hends⟩ := (resetsAt_roll_eq_ok_iff hwindow).mp hresets
  rw [hstart] at hstart'
  cases hstart'
  have hnanos : now.nanos + u.resetsIn.nanos = start.nanos + g.quota.window.nanos := by
    rw [hshown, hends]
    simp only [Span.ofDifference, Timestamp.since]
    omega
  refine ⟨retryAt, ?_, ?_, ?_⟩
  · rw [refuse, hresets, hshown]
    rfl
  · exact Timestamp.plus_eq_ok_iff.mpr ⟨hnanos ▸ hrange, by rw [hends, hnanos]⟩
  · omega

/-- A window that has started runs no longer than it is. -/
theorem Gauge.resetsIn_le_window {g : Gauge} {u : Usage} (hwindow : 0 < g.quota.window.nanos)
    (hstarted : ∀ s, g.start = some s → s ≤ now) (hu : (g.roll now).usage now = .ok u) :
    u.resetsIn.nanos ≤ g.quota.window.nanos := by
  obtain ⟨resetsAt, hresets, rfl⟩ := usage_eq_ok_iff.mp hu
  obtain ⟨start, hstart, _, rfl⟩ := (resetsAt_roll_eq_ok_iff hwindow).mp hresets
  have hle : start.nanos ≤ now.nanos := start_le_roll hstarted start hstart
  simp only [Span.ofDifference, Timestamp.since]
  omega

namespace Limiter

variable {l : Limiter} {us : List Usage}

/-- A tier that shows no room refuses by what is shown of it. -/
theorem refuses_of_shown (hwindow : ∀ g ∈ l.gauges, 0 < g.quota.window.nanos)
    (hus : l.usages now = .ok (l.lookedAt now, us)) {u : Usage} (hu : us[c.position]? = some u)
    (hfull : u.remaining < c.units) : ∃ retryAt, Refuses now (l.lookedAt now).gauges c
        ⟨u.tier, c.units, u.remaining, u.capacity, u.resetsIn, retryAt⟩ ∧
      now.plus u.resetsIn.nanos = .ok retryAt ∧ 0 < u.resetsIn.nanos := by
  obtain ⟨g, hg, hok⟩ := exists_gauge hus hu
  obtain ⟨retryAt, hrefuse, hplus, hpos⟩ :=
    Gauge.refuse_of_usage (hwindow g (List.mem_of_getElem? hg)) hok c.units
  refine ⟨retryAt, ⟨g.roll now, ?_, ?_, hrefuse⟩, hplus, hpos⟩
  · rw [getElem?_lookedAt, hg, Option.map_some]
  · obtain ⟨_, _, rfl⟩ := Gauge.usage_eq_ok_iff.mp hok
    exact hfull

/-- **The refusal that stands longest is the denial that names the tier in the way.** -/
theorem blames_of_latest (hwindow : ∀ g ∈ l.gauges, 0 < g.quota.window.nanos)
    (hus : l.usages now = .ok (l.lookedAt now, us))
    (h : Latest now (l.lookedAt now).gauges charges c d) : ∃ u, Blames now us charges d c u := by
  obtain ⟨G, hG, hlacks, _⟩ := h.refuses
  obtain ⟨u, hu, hok⟩ := exists_usage hus hG
  have hfull : u.remaining < c.units := by
    obtain ⟨_, _, rfl⟩ := Gauge.usage_eq_ok_iff.mp hok
    exact hlacks
  obtain ⟨retryAt, hrefuses, hplus, hpos⟩ := refuses_of_shown hwindow hus hu hfull
  cases h.refuses.unique hrefuses
  have hretry := Timestamp.nanos_of_plus hplus
  have hsince : (u.resetsIn.nanos : Int) = retryAt.since now := by
    rw [Timestamp.since]
    omega
  refine ⟨u, h.mem, hu, hfull, rfl, rfl, rfl, rfl, hplus, rfl, hsince, hpos, ?_, ?_⟩
  · intro c' hc' u' hu' hfull'
    obtain ⟨retryAt', hrefuses', hplus', _⟩ := refuses_of_shown hwindow hus hu' hfull'
    have hle : retryAt'.nanos ≤ retryAt.nanos := h.last c' hc' _ hrefuses'
    rw [Timestamp.nanos_of_plus hplus', hretry] at hle
    omega
  · intro c' hc' hbefore u' hu' hfull'
    obtain ⟨retryAt', hrefuses', hplus', _⟩ := refuses_of_shown hwindow hus hu' hfull'
    have hlt : retryAt'.nanos < retryAt.nanos := h.first c' hc' hbefore _ hrefuses'
    rw [Timestamp.nanos_of_plus hplus', hretry] at hlt
    omega

end Limiter

/-! ## What an admission takes -/

/-- What is shown of a tier once more units were taken from it. -/
def Usage.taking (units : Nat) (u : Usage) : Usage :=
  { u with used := u.used + units, remaining := u.remaining - units }

namespace Gauge

variable {g : Gauge}

theorem usage_charge (units : Nat) (g : Gauge) :
    (g.charge units).usage now = (g.usage now).map (Usage.taking units) := by
  unfold usage
  have hresets : (g.charge units).resetsAt now = g.resetsAt now := rfl
  rw [hresets]
  cases g.resetsAt now with
  | error fault => rfl
  | ok t =>
    simp only [remaining, charge, bind, Except.bind, pure, Except.pure, Except.map, Usage.taking,
      Nat.sub_sub]

theorem roll_charge_roll (hwindow : 0 < g.quota.window.nanos) (units : Nat) :
    ((g.roll now).charge units).roll now = (g.roll now).charge units :=
  roll_of_not_isOver (isOver_roll (g := g) hwindow)

end Gauge

theorem unitsAt_position (hrise : (charges.map Charge.position).Pairwise (· < ·))
    (hc : c ∈ charges) : unitsAt charges c.position = c.units := by
  have hmem : c ∈ charges.filter fun e => e.position = c.position :=
    List.mem_filter.mpr ⟨hc, by simp⟩
  rcases charges_at hrise c.position with hnil | ⟨c', _, _, heq⟩
  · rw [hnil] at hmem
    cases hmem
  · rw [heq, List.mem_singleton] at hmem
    rw [unitsAt, heq, hmem]
    simp

namespace Limiter

variable {l l' : Limiter} {us : List Usage}

/-- Once charged, tiers stand as they stood with the charges made. -/
theorem getElem?_lookedAt_charged (hrise : (charges.map Charge.position).Pairwise (· < ·))
    (hwindow : ∀ g ∈ l.gauges, 0 < g.quota.window.nanos)
    (h : l'.gauges = chargeAll charges (rollAll now charges l.gauges)) (p : Nat) :
    (l'.lookedAt now).gauges[p]? =
      (l.lookedAt now).gauges[p]?.map (Gauge.charge (unitsAt charges p)) := by
  rw [getElem?_lookedAt, getElem?_lookedAt, h, getElem?_chargeAll,
    getElem?_rollAll hrise]
  cases hg : l.gauges[p]? with
  | none => simp
  | some g =>
    cases hconcerns : concernsAt charges p with
    | true =>
      simp only [if_true, Option.map_some]
      rw [Gauge.roll_charge_roll (hwindow g (List.mem_of_getElem? hg))]
    | false =>
      rw [unitsAt_of_not_concernsAt hconcerns]
      rfl

/-- **Once charged, tiers are shown with the charges taken.** -/
theorem usages_of_charged (hrise : (charges.map Charge.position).Pairwise (· < ·))
    (hwindow : ∀ g ∈ l.gauges, 0 < g.quota.window.nanos)
    (h : l'.gauges = chargeAll charges (rollAll now charges l.gauges))
    (hus : l.usages now = .ok (l.lookedAt now, us)) :
    ∃ us', l'.usages now = .ok (l'.lookedAt now, us') ∧
      ∀ p : Nat, us'[p]? = us[p]?.map (Usage.taking (unitsAt charges p)) := by
  refine ⟨us.mapIdx fun p u => u.taking (unitsAt charges p), ?_, fun p => List.getElem?_mapIdx⟩
  refine usages_eq_ok_iff.mpr ⟨rfl, ?_⟩
  apply List.ext_getElem?
  intro p
  have hshown := congrArg (Option.map (Except.map (Usage.taking (unitsAt charges p))))
    (getElem?_of_usages hus p)
  rw [List.getElem?_map, List.getElem?_map, List.getElem?_mapIdx,
    getElem?_lookedAt_charged hrise hwindow h, Option.map_map]
  simp only [Option.map_map, Function.comp_def, Gauge.usage_charge] at hshown ⊢
  exact hshown.symm

theorem table_of_charged (hrise : (charges.map Charge.position).Pairwise (· < ·))
    (h : l'.gauges = chargeAll charges (rollAll now charges l.gauges)) : l'.table = l.table := by
  rw [table, table, Ledger.map_quota_eq]
  intro p
  rw [h, getElem?_chargeAll]
  have hrolled : Rolled now l.gauges (rollAll now charges l.gauges) := rolled_rollAll hrise _
  rcases hrolled p with he | he <;>
    simp [he, Function.comp_def]

/-- A charge changes what is shown of its own tier, and other tiers stay as they were. -/
theorem Shows.of_charged (hreg : l.table.Regular) (hnames : l.table.ids.Nodup)
    (hrise : (charges.map Charge.position).Pairwise (· < ·))
    (h : l'.gauges = chargeAll charges (rollAll now charges l.gauges)) (hshows : l.Shows now us) :
    ∃ us', l'.Shows now us' ∧
      (∀ c ∈ charges, us'[c.position]? = us[c.position]?.map (Usage.taking c.units)) ∧
      ∀ p : Nat, (∀ c ∈ charges, c.position ≠ p) →
        us'[p]? = us[p]? ∧ l'.gauges[p]? = l.gauges[p]? := by
  obtain ⟨us', hus', htaking⟩ := usages_of_charged hrise (window_pos hreg) h hshows.usages
  refine ⟨us', .of_usages (table_of_charged hrise h ▸ hnames) hus', ?_, ?_⟩
  · intro c hc
    rw [htaking, unitsAt_position hrise hc]
  · intro p hp
    have hconcerns : concernsAt charges p = false := by
      rw [concernsAt, List.any_eq_false]
      intro c hc
      simpa using hp c hc
    rw [htaking, h, getElem?_chargeAll, getElem?_rollAll hrise, hconcerns,
      unitsAt_of_not_concernsAt hconcerns]
    constructor
    · cases us[p]? <;> rfl
    · cases l.gauges[p]? <;> rfl

/-- All that can become of a reservation of a known tier, read off what is shown. -/
theorem refused_or_admitted (hreg : l.table.Regular) {tier : String} {g : Gauge}
    (hg : l.gauge? tier = some g) (hus : l.usages now = .ok (l.lookedAt now, us))
    {result : Except ThrottleError Reservation} (h : l.reserve tier now = .ok (l', result)) :
    (∃ d c u, result = .error (.exceeded d) ∧ Blames now us g.quota.charges d c u) ∨
      (∃ r, result = .ok r) ∧
        (∀ c ∈ g.quota.charges, ∀ u, us[c.position]? = some u → c.units ≤ u.remaining) ∧
        l'.gauges = chargeAll g.quota.charges (rollAll now g.quota.charges l.gauges) := by
  have hrise := charges_rise hreg g (List.mem_of_find?_eq_some hg)
  rcases reserve_cases h with ⟨hnone, _⟩ | ⟨g', hg', hcases⟩
  · rw [hg] at hnone
    cases hnone
  rw [hg] at hg'
  cases hg'
  rcases hcases with ⟨d, hd, _, rfl⟩ | ⟨hroom, rfl, rfl⟩
  · rw [denial?_rollAll hreg hg] at hd
    obtain ⟨c, hlatest⟩ := found_of_denial? hrise hd
    obtain ⟨u, hblames⟩ := blames_of_latest (window_pos hreg) hus hlatest
    exact Or.inl ⟨d, c, u, rfl, hblames⟩
  · rw [denial?_rollAll hreg hg] at hroom
    refine Or.inr ⟨⟨_, rfl⟩, fun c hc u hu => ?_, rfl⟩
    obtain ⟨g₀, hg₀, hok⟩ := exists_gauge hus hu
    obtain ⟨_, _, rfl⟩ := Gauge.usage_eq_ok_iff.mp hok
    refine found_of_denial? hrise hroom c hc _ ?_
    rw [getElem?_lookedAt, hg₀, Option.map_some]

end Limiter

namespace Ledger

variable {table : Table} {owner : Nat} {ledger : Ledger}

/-- No window starts later than what the clock has shown. -/
theorem started_of_run (hr : table.Regular) {turns : List (Turn owner)}
    (hrun : (opening owner table).run turns = .ok ledger) (hpast : ∀ t ∈ turns, t.now ≤ now) :
    ∀ g ∈ ledger.limiter.gauges, ∀ s, g.start = some s → s ≤ now := by
  have hkeeps := (run_keeps (P := fun d => ∀ (p : Nat) (g : Gauge), d.limiter.gauges[p]? = some g →
    ∀ s, g.start = some s → s ≤ now) hr ?_ (Kept.opening table owner) ?_ hrun).2
  · intro g hg
    obtain ⟨p, hp⟩ := List.mem_iff_getElem?.mp hg
    exact hkeeps p g hp
  · intro t ht d d' _ hm hstarted p g' hg' s hs
    obtain ⟨g, used, hg, heq⟩ := hm.gauge hg'
    rcases heq with rfl | rfl
    · exact hstarted p g hg s hs
    · rcases Gauge.roll_eq t.now g with ⟨_, hroll⟩ | ⟨_, hroll⟩
      · rw [hroll] at hs
        exact hstarted p g hg s hs
      · rw [hroll] at hs
        cases hs
        exact hpast t ht
  · intro p g hg s hs
    simp only [opening, Limiter.create, List.getElem?_map, Option.map_eq_some_iff] at hg
    obtain ⟨q, _, rfl⟩ := hg
    cases hs

/-- By a clock that stays within the range of dates, windows end within it. -/
theorem endsInRange_of_run (now : Timestamp) (hr : table.Regular) {turns : List (Turn owner)}
    (hrun : (opening owner table).run turns = .ok ledger) (hfits : ∀ t ∈ turns, Fits table t)
    (hnow : ∀ q ∈ table.quotas, Timestamp.inRange (now.nanos + q.window.nanos) = true) :
    ∀ g ∈ ledger.limiter.gauges, g.EndsInRange now := by
  obtain ⟨hkept, hrange⟩ :=
    inRange_of_run hr hfits (Kept.opening table owner) (InRange.opening owner table) hrun
  exact hrange.endsInRange hkept hnow

/-- Where windows end within the range of dates, everything is shown. -/
theorem shows_of_run {tiers : List Tier} (hb : Table.build tiers = .ok table)
    {turns : List (Turn owner)} (hrun : (opening owner table).run turns = .ok ledger)
    (hends : ∀ g ∈ ledger.limiter.gauges, g.EndsInRange now) :
    ∃ us, ledger.limiter.Shows now us := by
  obtain ⟨hkept, _⟩ := balanced_of_run (Table.regular_of_build hb) hrun
  obtain ⟨⟨l', us⟩, hus⟩ := Limiter.usages_isOk hends
  obtain ⟨rfl, _⟩ := Limiter.usages_eq_ok_iff.mp hus
  exact ⟨us, .of_usages (hkept.table_eq ▸ Table.nodup_ids_of_build hb) hus⟩

/-- **Admission is exact.**  In every state that a limiter can be in, a reservation of a known tier
is admitted exactly if every tier that it charges shows room for the charge.  It then takes these
charges and nothing else.  A refusal names a tier that lacks room, the first among those whose
windows are over last, with what is shown of it; by a clock that has not gone back, it is no more
than that tier's window away. -/
theorem admission_of_run {tiers : List Tier} (hb : Table.build tiers = .ok table)
    {turns : List (Turn owner)} (hrun : (opening owner table).run turns = .ok ledger)
    (hends : ∀ g ∈ ledger.limiter.gauges, g.EndsInRange now) {tier : String} {q : Quota}
    (hq : table.quota? tier = some q) :
    ∃ us l' result, ledger.limiter.Shows now us ∧
      ledger.limiter.reserve tier now = .ok (l', result) ∧
      ((∃ r, result = .ok r) ↔
        ∀ c ∈ q.charges, ∃ u, us[c.position]? = some u ∧ c.units ≤ u.remaining) ∧
      (∀ r, result = .ok r → ∃ us', l'.Shows now us' ∧
        (∀ c ∈ q.charges, us'[c.position]? = us[c.position]?.map (Usage.taking c.units)) ∧
        ∀ p : Nat, (∀ c ∈ q.charges, c.position ≠ p) →
          us'[p]? = us[p]? ∧ l'.gauges[p]? = ledger.limiter.gauges[p]?) ∧
      ∀ e, result = .error e → ∃ d c u, e = .exceeded d ∧ Blames now us q.charges d c u ∧
        ((∀ t ∈ turns, t.now ≤ now) → ∀ target, table.quotas[c.position]? = some target →
          d.retryAfter.nanos ≤ target.window.nanos) := by
  have hr := Table.regular_of_build hb
  obtain ⟨hkept, _⟩ := balanced_of_run hr hrun
  have hreg := hkept.regular hr
  have hnames : ledger.limiter.table.ids.Nodup := hkept.table_eq ▸ Table.nodup_ids_of_build hb
  obtain ⟨us, hshows⟩ := shows_of_run hb hrun hends
  obtain ⟨⟨l', result⟩, hreserve⟩ :=
    Limiter.reserve_isOk tier (Limiter.charges_rise hreg) hends
  obtain ⟨g, hg, rfl⟩ : ∃ g, ledger.limiter.gauge? tier = some g ∧ g.quota = q := by
    rwa [← hkept.table_eq, Limiter.quota?_table, Option.map_eq_some_iff] at hq
  have hshown : ∀ c ∈ g.quota.charges, ∃ u, us[c.position]? = some u := by
    intro c hc
    have hlt := Table.position_lt_of_build hb g.quota (hkept.quota?_of_gauge? hg).2 c hc
    rw [← hkept.quotas, List.length_map] at hlt
    obtain ⟨u, hu, _⟩ := Limiter.exists_usage hshows.usages (p := c.position)
      (by rw [Limiter.getElem?_lookedAt, List.getElem?_eq_getElem hlt]; rfl)
    exact ⟨u, hu⟩
  refine ⟨us, l', result, hshows, hreserve, ?_⟩
  rcases Limiter.refused_or_admitted hreg hg hshows.usages hreserve with
    ⟨d, c, u, rfl, hblames⟩ | ⟨⟨r, rfl⟩, hroom, hcharged⟩
  · refine ⟨⟨?_, fun h => ?_⟩, fun r h => (by cases h), fun e he => ?_⟩
    · rintro ⟨r, h⟩
      cases h
    · obtain ⟨u', hu', hle⟩ := h c hblames.mem
      rw [hblames.shown] at hu'
      cases hu'
      exact absurd hblames.full (Nat.not_lt.mpr hle)
    · cases he
      refine ⟨d, c, u, rfl, hblames, fun hpast target htarget => ?_⟩
      obtain ⟨g₀, hg₀, hok⟩ := Limiter.exists_gauge hshows.usages hblames.shown
      rw [hkept.getElem?_quotas, hg₀] at htarget
      cases htarget
      have hmem := List.mem_of_getElem? hg₀
      rw [hblames.retryAfter]
      exact Gauge.resetsIn_le_window (Limiter.window_pos hreg g₀ hmem)
        (started_of_run hr hrun hpast g₀ hmem) hok
  · refine ⟨⟨fun _ c hc => ?_, fun _ => ⟨r, rfl⟩⟩, fun _ _ => ?_, fun e he => (by cases he)⟩
    · obtain ⟨u, hu⟩ := hshown c hc
      exact ⟨u, hu, hroom c hc u hu⟩
    · exact hshows.of_charged hreg hnames
        (Limiter.charges_rise hreg g (List.mem_of_find?_eq_some hg)) hcharged

/-- Reservations until two tiers are full. -/
def untilFull : List (Turn 1) :=
  [⟨⟨0, false⟩, .reserve "orders"⟩, ⟨⟨0, false⟩, .reserve "orders"⟩,
    ⟨⟨1000000000, false⟩, .reserve "orders"⟩, ⟨⟨1000000000, false⟩, .reserve "orders"⟩]

/-- Of two tiers that are full, the one that is full longer is named. -/
theorem admission_untilFull : Table.build linkedTiers = .ok linkedTable ∧
    ∃ ledger us l' d c u, (opening 1 linkedTable).run untilFull = .ok ledger ∧
      ledger.limiter.Shows ⟨1500000000, false⟩ us ∧
      ledger.limiter.reserve "orders" ⟨1500000000, false⟩ = .ok (l', .error (.exceeded d)) ∧
      Blames ⟨1500000000, false⟩ us [⟨0, 1⟩, ⟨1, 5⟩] d c u ∧ us.map Usage.remaining = [0, 0] ∧
      d.tier = "weight" ∧ d.retryAt = ⟨60000000000, false⟩ ∧ d.retryAfter = ⟨58500000000⟩ := by
  have hb : Table.build linkedTiers = .ok linkedTable := rfl
  obtain ⟨ledger, hrun⟩ : ∃ d, (opening 1 linkedTable).run untilFull = .ok d := ⟨_, rfl⟩
  have hends := endsInRange_of_run ⟨1500000000, false⟩ (Table.regular_of_build hb) hrun
    (by decide) (by decide)
  obtain ⟨us, l', result, hshows, hreserve, -, -, hrefused⟩ :=
    admission_of_run hb hrun hends (show linkedTable.quota? "orders" = some _ from rfl)
  have hus := hshows.usages
  cases hrun
  cases hus
  cases hreserve
  obtain ⟨d, c, u, hd, hblames, -⟩ := hrefused _ rfl
  cases hd
  exact ⟨hb, _, _, _, _, c, u, rfl, hshows, rfl, hblames, rfl, rfl, rfl, rfl⟩

end Ledger

end SpotGateway
