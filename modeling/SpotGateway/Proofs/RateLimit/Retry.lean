import SpotGateway.Proofs.RateLimit.Refusal

/-!
# Asking again

A refusal leaves nothing behind but its count, so that asking again at the same instant is refused
again and costs nothing.  The instant that a refusal names is the first one to ask again at: until
then nothing but a release lets the tier admit, and from then on it does.

* `Ledger.refusals_of_asked`, `Ledger.refusal_of_run` — reservations that are refused at an instant;
* `Grown`, `Ledger.grown_of_step` — what steps do to gauges that give nothing back;
* `Tight`, `Ledger.tight_of_run` — a window that runs keeps lacking room;
* `Limiter.reserve_of_waited` — once the instant has come, all tiers have room;
* `Ledger.retryAt_of_run` — the instant that a refusal names is the earliest.
-/

set_option autoImplicit false

namespace SpotGateway

/-! ## Refused at an instant -/

namespace Limiter

variable {l l' : Limiter} {now : Timestamp} {tier : String}

theorem stats_of_refused {e : ThrottleError} (h : l.reserve tier now = .ok (l', .error e)) :
    l'.stats = { l.stats with
      rejected := l.stats.rejected + if l.table.contains tier then 1 else 0 } := by
  rw [Table.contains, quota?_table]
  rcases reserve_cases h with ⟨hg, rfl, _⟩ | ⟨g, hg, ⟨_, _, rfl, _⟩ | ⟨_, _, hr⟩⟩
  · simp [hg]
  · simp [hg]
  · cases hr

end Limiter

namespace Ledger

variable {table : Table} {owner : Nat} {ledger : Ledger} {now : Timestamp}

theorem step_of_refused (owner : Nat) {tier : String} {l' : Limiter} {e : ThrottleError}
    (h : ledger.limiter.reserve tier now = .ok (l', .error e)) :
    ledger.step (⟨now, .reserve tier⟩ : Turn owner) = .ok { ledger with limiter := l' } := by
  simp only [step, h]
  rfl

/-- **However often it is refused, asking at one instant leaves nothing behind but the count of
refusals.** -/
theorem refusals_of_asked (hr : table.Regular) (hd : ledger.Kept table owner) {asked : List String}
    (h : ∀ tier ∈ asked, ∃ e, ledger.limiter.verdict tier now = .ok (some e)) :
    ∃ ledger', ledger.run (asked.map fun tier => (⟨now, .reserve tier⟩ : Turn owner)) =
        .ok ledger' ∧
      ledger.limiter.Alike now ledger'.limiter ∧ ledger'.entries = ledger.entries ∧
      ledger'.limiter.stats = { ledger.limiter.stats with
        rejected := ledger.limiter.stats.rejected + asked.countP table.contains } := by
  induction asked generalizing ledger with
  | nil => exact ⟨ledger, rfl, rfl, rfl, rfl⟩
  | cons tier rest ih =>
    obtain ⟨e, he⟩ := h tier List.mem_cons_self
    obtain ⟨l', hrefused⟩ := Limiter.verdict_eq_error_iff.mp he
    have hstep := step_of_refused owner hrefused
    have halike := Limiter.alike_of_refused (hd.regular hr) hrefused
    have hstats := Limiter.stats_of_refused hrefused
    -- As the tiers stand the same, what was refused at first is refused still.
    obtain ⟨ledger', hrun, halike', hentries, hstats'⟩ :=
      ih (step_moves hd hr hstep).1 fun tier' htier' => by
        rw [halike.verdict_eq (hd.regular hr)]
        exact h tier' (List.mem_cons_of_mem _ htier')
    refine ⟨ledger', ?_, halike.trans halike', hentries, ?_⟩
    · rw [List.map_cons, run, List.foldlM_cons, hstep]
      exact hrun
    · rw [hstats', hstats, hd.table_eq, List.countP_cons]
      simp only [Nat.add_assoc, Nat.add_comm (List.countP _ _)]

/-- **A refusal is atomic.**  In every state that a limiter can be in, a reservation that exceeds a
tier leaves all tiers shown as they were, and counts one refusal; one of a tier that is not known
changes nothing.  So any number of reservations, each refused at that instant, use up nothing, and
what is refused or admitted then stays the same. -/
theorem refusal_of_run {tiers : List Tier} (hb : Table.build tiers = .ok table)
    {turns : List (Turn owner)} (hrun : (opening owner table).run turns = .ok ledger)
    (hends : ∀ g ∈ ledger.limiter.gauges, g.EndsInRange now) :
    ∃ us, ledger.limiter.Shows now us ∧
      (∀ tier, ∃ l' result, ledger.limiter.reserve tier now = .ok (l', result) ∧
        (∀ d, result = .error (.exceeded d) → l'.Shows now us ∧
          l'.stats = { ledger.limiter.stats with
            rejected := ledger.limiter.stats.rejected + 1 }) ∧
        ∀ id, result = .error (.unknownTier id) → l' = ledger.limiter) ∧
      ∀ asked : List String,
        (∀ tier ∈ asked, ∃ l' e, ledger.limiter.reserve tier now = .ok (l', .error e)) →
        ∃ ledger', ledger.run (asked.map fun tier => (⟨now, .reserve tier⟩ : Turn owner)) =
            .ok ledger' ∧
          ledger'.limiter.Shows now us ∧ ledger'.entries = ledger.entries ∧
          ledger'.limiter.stats = { ledger.limiter.stats with
            rejected := ledger.limiter.stats.rejected + asked.countP table.contains } ∧
          ∀ tier, ledger'.limiter.verdict tier now = ledger.limiter.verdict tier now := by
  have hr := Table.regular_of_build hb
  obtain ⟨hkept, _⟩ := balanced_of_run hr hrun
  have hreg := hkept.regular hr
  have hnames : ledger.limiter.table.ids.Nodup := hkept.table_eq ▸ Table.nodup_ids_of_build hb
  obtain ⟨us, hshows⟩ := shows_of_run hb hrun hends
  refine ⟨us, hshows, fun tier => ?_, fun asked hasked => ?_⟩
  · obtain ⟨⟨l', result⟩, hreserve⟩ :=
      Limiter.reserve_isOk tier (Limiter.charges_rise hreg) hends
    refine ⟨l', result, hreserve, ?_, ?_⟩
    · rintro d rfl
      refine ⟨(Limiter.alike_of_refused hreg hreserve).shows hnames hshows, ?_⟩
      rcases Limiter.rejected_of_reserve hreserve with ⟨_, he⟩ | ⟨_, hstats⟩
      · cases he
      · exact hstats
    · rintro id rfl
      rcases Limiter.rejected_of_reserve hreserve with ⟨hl, _⟩ | ⟨⟨_, he⟩, _⟩
      · exact hl
      · cases he
  · obtain ⟨ledger', hrun', halike, hentries, hstats⟩ :=
      refusals_of_asked hr hkept fun tier htier => by
        obtain ⟨l', e, hrefused⟩ := hasked tier htier
        exact ⟨e, Limiter.verdict_eq_error_iff.mpr ⟨l', hrefused⟩⟩
    exact ⟨ledger', hrun', halike.shows hnames hshows, hentries, hstats,
      fun _ => halike.verdict_eq hreg⟩

/-- Reservations until one tier is full. -/
def twoOrders : List (Turn 1) :=
  [⟨⟨0, false⟩, .reserve "orders"⟩, ⟨⟨0, false⟩, .reserve "orders"⟩]

/-- A tier that is full and one that is not known are asked for, which the other tier does not
pay for. -/
theorem refusal_twoOrders : Table.build linkedTiers = .ok linkedTable ∧
    ∃ ledger us ledger', (opening 1 linkedTable).run twoOrders = .ok ledger ∧
      ledger.limiter.Shows ⟨200000000, false⟩ us ∧ us.map Usage.remaining = [0, 10] ∧
      ledger.run (["orders", "funds", "orders"].map fun tier =>
        (⟨⟨200000000, false⟩, .reserve tier⟩ : Turn 1)) = .ok ledger' ∧
      ledger'.limiter.Shows ⟨200000000, false⟩ us ∧ ledger'.limiter.stats = ⟨2, 2, 0, 0⟩ := by
  have hb : Table.build linkedTiers = .ok linkedTable := rfl
  obtain ⟨ledger, hrun⟩ : ∃ d, (opening 1 linkedTable).run twoOrders = .ok d := ⟨_, rfl⟩
  have hends := endsInRange_of_run ⟨200000000, false⟩ (Table.regular_of_build hb) hrun
    (by decide) (by decide)
  obtain ⟨us, hshows, -, hasked⟩ := refusal_of_run hb hrun hends
  have hus := hshows.usages
  cases hrun
  cases hus
  obtain ⟨ledger', hrun', hshows', -, hstats, -⟩ := hasked ["orders", "funds", "orders"] (by
    intro tier htier
    simp only [List.mem_cons, List.not_mem_nil, or_false] at htier
    rcases htier with rfl | rfl | rfl <;> exact ⟨_, _, rfl⟩)
  exact ⟨hb, _, _, ledger', rfl, hshows, rfl, hrun', hshows', hstats⟩

end Ledger

/-! ## While a window runs -/

/-- Each gauge may have been looked at, and may have been charged. -/
def Grown (now : Timestamp) (gauges gauges' : List Gauge) : Prop :=
  ∀ (p : Nat) (g : Gauge), gauges[p]? = some g → ∃ units,
    gauges'[p]? = some (g.charge units) ∨ gauges'[p]? = some ((g.roll now).charge units)

theorem Grown.of_rolled {now : Timestamp} {gauges gauges' : List Gauge}
    (h : Rolled now gauges gauges') : Grown now gauges gauges' := by
  intro p g hg
  refine ⟨0, ?_⟩
  rcases h p with he | he <;> rw [he, hg]
  · exact Or.inl rfl
  · exact Or.inr rfl

/-- A reservation looks at gauges, and charges them if they all have room. -/
theorem Limiter.grown_of_reserve {l l' : Limiter} {tier : String} {now : Timestamp}
    {result : Except ThrottleError Reservation} (hreg : l.table.Regular)
    (h : l.reserve tier now = .ok (l', result)) : Grown now l.gauges l'.gauges := by
  rcases reserve_cases h with ⟨_, rfl, _⟩ | ⟨g, hg, hcases⟩
  · exact .of_rolled (Rolled.refl _ _)
  have hrolled : Rolled now l.gauges (rollAll now g.quota.charges l.gauges) :=
    rolled_rollAll (charges_rise hreg g (List.mem_of_find?_eq_some hg)) _
  rcases hcases with ⟨_, _, rfl, _⟩ | ⟨_, rfl, _⟩
  · exact .of_rolled hrolled
  · intro p g₀ hg₀
    refine ⟨unitsAt g.quota.charges p, ?_⟩
    rw [getElem?_chargeAll]
    rcases hrolled p with he | he <;> rw [he, hg₀]
    · exact Or.inl rfl
    · exact Or.inr rfl

/-- The tier at the position has a window that started then, and no more than `room` is left. -/
def Tight (gauges : List Gauge) (p : Nat) (q : Quota) (start : Timestamp) (room : Nat) : Prop :=
  ∃ g, gauges[p]? = some g ∧ g.quota = q ∧ g.start = some start ∧ g.remaining ≤ room

/-- A window that is not over stays as it is when it is looked at. -/
theorem Gauge.roll_of_before {now start : Timestamp} {g : Gauge} (hstart : g.start = some start)
    (h : now.nanos < start.nanos + g.quota.window.nanos) : g.roll now = g := by
  rcases roll_eq now g with ⟨_, heq⟩ | ⟨hover, _⟩
  · exact heq
  · have := since_of_isOver hstart hover
    rw [Timestamp.since] at this
    omega

theorem Tight.of_grown {now start : Timestamp} {gauges gauges' : List Gauge} {p room : Nat}
    {q : Quota} (h : Tight gauges p q start room) (hgrown : Grown now gauges gauges')
    (hbefore : now.nanos < start.nanos + q.window.nanos) : Tight gauges' p q start room := by
  obtain ⟨g, hg, rfl, hstart, hroom⟩ := h
  obtain ⟨units, hg'⟩ := hgrown p g hg
  rw [Gauge.roll_of_before hstart hbefore, or_self] at hg'
  refine ⟨_, hg', rfl, hstart, ?_⟩
  simp only [Gauge.remaining, Gauge.quota_charge, Gauge.used_charge] at hroom ⊢
  omega

/-- A refusal names the end of the window that runs. -/
theorem Gauge.retryAt_of_refuse {now : Timestamp} {g : Gauge} {units : Nat} {d : Denial}
    (hwindow : 0 < g.quota.window.nanos) (h : (g.roll now).refuse now units = .ok d) :
    ∃ start, (g.roll now).start = some start ∧
      d.retryAt = ⟨start.nanos + g.quota.window.nanos, false⟩ := by
  obtain ⟨retryAt, hresets, hd⟩ := bind_eq_ok.mp h
  rw [pure_eq_ok] at hd
  obtain ⟨start, hstart, _, hretry⟩ := (resetsAt_roll_eq_ok_iff hwindow).mp hresets
  exact ⟨start, hstart, by rw [← hd, hretry]⟩

/-- Whether units are given back. -/
def Operation.givesBack {owner : Nat} : Operation owner → Bool
  | .release _ => true
  | _ => false

namespace Ledger

variable {table : Table} {owner : Nat} {ledger d d' : Ledger} {now start : Timestamp} {p room : Nat}

/-- What a step can do to gauges that gives nothing back. -/
theorem grown_of_step (hd : d.Kept table owner) (hr : table.Regular) {t : Turn owner}
    (hkeeps : t.operation.givesBack = false) (h : d.step t = .ok d') :
    Grown t.now d.limiter.gauges d'.limiter.gauges := by
  have unmoved : Grown t.now d.limiter.gauges d.limiter.gauges := .of_rolled (Rolled.refl _ _)
  obtain ⟨now, operation⟩ := t
  cases operation with
  | reserve tier =>
    obtain ⟨result, hreserve⟩ := reserve_of_step h
    exact Limiter.grown_of_reserve (hd.regular hr) hreserve
  | release number => cases hkeeps
  | record number =>
    cases h
    rw [limiter_handBack Limiter.gauges _ _ _ Limiter.gauges_record]
    exact unmoved
  | drop number =>
    cases h
    rw [limiter_handBack Limiter.gauges _ _ _ fun _ _ => rfl]
    exact unmoved
  | releaseStray stray =>
    cases h
    rw [Limiter.release_of_ne (hd.id ▸ stray.limiter_ne)]
    exact unmoved
  | recordStray stray =>
    cases h
    rw [Limiter.record_of_ne (hd.id ▸ stray.limiter_ne)]
    exact unmoved
  | usage tier =>
    obtain ⟨⟨limiter, _⟩, husage, h⟩ := bind_eq_ok.mp h
    cases h
    obtain ⟨gauges, rfl, hrolled⟩ := Limiter.rolled_usage husage
    exact .of_rolled hrolled
  | usages =>
    obtain ⟨⟨limiter, _⟩, husages, h⟩ := bind_eq_ok.mp h
    cases h
    obtain ⟨gauges, rfl, hrolled⟩ := Limiter.rolled_usages husages
    exact .of_rolled hrolled

/-- **Until a window is over, room that it lacks comes back with releases alone.** -/
theorem tight_of_run (hr : table.Regular) (hd : d.Kept table owner) {q : Quota}
    (htight : Tight d.limiter.gauges p q start room) {turns : List (Turn owner)}
    (hturns : ∀ t ∈ turns, t.operation.givesBack = false ∧
      t.now.nanos < start.nanos + q.window.nanos)
    (h : d.run turns = .ok d') :
    d'.Kept table owner ∧ Tight d'.limiter.gauges p q start room := by
  refine foldlM_along (fun _ d => d.Kept table owner ∧ Tight d.limiter.gauges p q start room)
    ⟨hd, htight⟩ ?_ h
  rintro seen t rest e e' rfl ⟨hkept, htight⟩ hstep
  obtain ⟨hkeeps, hbefore⟩ := hturns t (List.mem_append_right _ List.mem_cons_self)
  exact ⟨(step_moves hkept hr hstep).1,
    htight.of_grown (grown_of_step hkept hr hkeeps hstep) hbefore⟩

end Ledger

namespace Limiter

variable {l l' : Limiter} {now later start : Timestamp} {tier : String} {q : Quota}

theorem exists_gauge? (hq : l.table.quota? tier = some q) :
    ∃ g, l.gauge? tier = some g ∧ g.quota = q := by
  rwa [quota?_table, Option.map_eq_some_iff] at hq

/-- A tier with a window that runs and lacks room refuses. -/
theorem refused_of_tight (hreg : l.table.Regular) (hq : l.table.quota? tier = some q) {c : Charge}
    (hc : c ∈ q.charges) {target : Quota} {room : Nat}
    (htight : Tight l.gauges c.position target start room) (hroom : room < c.units)
    (hbefore : now.nanos < start.nanos + target.window.nanos)
    {result : Except ThrottleError Reservation} (h : l.reserve tier now = .ok (l', result)) :
    ∃ d, result = .error (.exceeded d) := by
  obtain ⟨g, hg, rfl⟩ := exists_gauge? hq
  rcases reserve_cases h with ⟨hnone, _⟩ | ⟨g', hg', ⟨d, _, _, rfl⟩ | ⟨hnone, _⟩⟩
  · rw [hg] at hnone
    cases hnone
  · exact ⟨d, rfl⟩
  · rw [hg] at hg'
    cases hg'
    obtain ⟨b, hb, rfl, hstart, hle⟩ := htight
    rw [denial?_rollAll hreg hg] at hnone
    have hrise := charges_rise hreg g (List.mem_of_find?_eq_some hg)
    have hlooked : (l.lookedAt now).gauges[c.position]? = some b := by
      rw [getElem?_lookedAt, hb, Option.map_some, Gauge.roll_of_before hstart hbefore]
    have hfits := found_of_denial? hrise hnone c hc b hlooked
    omega

/-- What a refusal leaves, and the charge that it names. -/
theorem latest_of_refused (hreg : l.table.Regular) (hq : l.table.quota? tier = some q) {d : Denial}
    (h : l.reserve tier now = .ok (l', .error (.exceeded d))) :
    l'.table = l.table ∧ (∀ c ∈ q.charges,
      l'.gauges[c.position]? = (l.lookedAt now).gauges[c.position]?) ∧
      ∃ c, Latest now (l.lookedAt now).gauges q.charges c d := by
  obtain ⟨g, hg, rfl⟩ := exists_gauge? hq
  have hrise := charges_rise hreg g (List.mem_of_find?_eq_some hg)
  refine ⟨(alike_of_refused hreg h).table_eq, ?_⟩
  rcases reserve_cases h with ⟨_, _, he⟩ | ⟨g', hg', ⟨d', hd', rfl, he⟩ | ⟨_, _, he⟩⟩
  · cases he
  · cases he
    rw [hg] at hg'
    cases hg'
    rw [denial?_rollAll hreg hg] at hd'
    exact ⟨fun c hc => getElem?_rollAll_position hrise l hc, found_of_denial? hrise hd'⟩
  · cases he

/-- The tier that a refusal names is tight until the instant that it names. -/
theorem tight_of_refused (hreg : l.table.Regular) (hq : l.table.quota? tier = some q) {d : Denial}
    (h : l.reserve tier now = .ok (l', .error (.exceeded d))) :
    ∃ c ∈ q.charges, ∃ target start room, Tight l'.gauges c.position target start room ∧
      room < c.units ∧ d.retryAt.nanos = start.nanos + target.window.nanos := by
  obtain ⟨_, hgauges, c, hlatest⟩ := latest_of_refused hreg hq h
  obtain ⟨G, hG, hfull, hrefuse⟩ := hlatest.refuses
  rw [← hgauges c hlatest.mem] at hG
  obtain ⟨g, hg, rfl⟩ : ∃ g, l.gauges[c.position]? = some g ∧ g.roll now = G := by
    rwa [hgauges c hlatest.mem, getElem?_lookedAt, Option.map_eq_some_iff] at hG
  obtain ⟨start, hstart, hretry⟩ :=
    Gauge.retryAt_of_refuse (window_pos hreg g (List.mem_of_getElem? hg)) hrefuse
  exact ⟨c, hlatest.mem, _, start, _, ⟨_, hG, rfl, hstart, Nat.le_refl _⟩, hfull, by
    rw [hretry, Gauge.quota_roll]⟩

/-- A window that outlasts the refusal did not lack room. -/
theorem room_of_running (hwindow : ∀ g ∈ l.gauges, 0 < g.quota.window.nanos)
    (hends : ∀ g ∈ l.gauges, g.EndsInRange now) {charges : List Charge} {e c : Charge} {d : Denial}
    (hlatest : Latest now (l.lookedAt now).gauges charges e d) (hlater : d.retryAt ≤ later)
    (hc : c ∈ charges) {g : Gauge} (hg : l.gauges[c.position]? = some g)
    (hrunning : (g.roll now).isOver later = false) : c.units ≤ (g.roll now).remaining := by
  by_contra hfull
  have hmem := List.mem_of_getElem? hg
  obtain ⟨resetsAt, hresets⟩ := (hends g hmem).roll.resetsAt_isOk
  obtain ⟨d', hrefuse⟩ : ∃ d', (g.roll now).refuse now c.units = .ok d' :=
    ⟨_, by rw [Gauge.refuse, hresets]; rfl⟩
  have hrefuses : Refuses now (l.lookedAt now).gauges c d' :=
    ⟨g.roll now, by rw [getElem?_lookedAt, hg]; rfl, Nat.lt_of_not_le hfull, hrefuse⟩
  -- It would have refused until its end, which has not come yet.
  obtain ⟨start, hstart, hretry⟩ := Gauge.retryAt_of_refuse (hwindow g hmem) hrefuse
  obtain ⟨start', hstart', hsince⟩ := Gauge.start_of_not_isOver hrunning
  rw [hstart] at hstart'
  cases hstart'
  have hle : d'.retryAt.nanos ≤ d.retryAt.nanos := hlatest.last c hc d' hrefuses
  have hlater : d.retryAt.nanos ≤ later.nanos := hlater
  rw [Timestamp.since, Gauge.quota_roll] at hsince
  rw [hretry] at hle
  simp only at hle
  omega

/-- **Once the instant has come that a refusal named, all tiers have room**, if they can have it
at all. -/
theorem reserve_of_waited (hreg : l.table.Regular) (hends : ∀ g ∈ l.gauges, g.EndsInRange now)
    (hq : l.table.quota? tier = some q) {d : Denial}
    (h : l.reserve tier now = .ok (l', .error (.exceeded d)))
    (hcapacity : ∀ c ∈ q.charges, ∀ g, l.gauges[c.position]? = some g →
      c.units ≤ g.quota.capacity)
    (hlater : d.retryAt ≤ later) : ∃ l'' r, l'.reserve tier later = .ok (l'', .ok r) := by
  obtain ⟨htable, hgauges, e, hlatest⟩ := latest_of_refused hreg hq h
  obtain ⟨g', hg', rfl⟩ := exists_gauge? (htable ▸ hq)
  have hroom : denial? later g'.quota.charges (l'.lookedAt later).gauges = .ok none := by
    refine denial?_of_room fun c hc G hG => ?_
    rw [getElem?_lookedAt, hgauges c hc, getElem?_lookedAt, Option.map_map,
      Option.map_eq_some_iff] at hG
    obtain ⟨g, hg, rfl⟩ := hG
    rcases Gauge.roll_eq later (g.roll now) with ⟨hrunning, heq⟩ | ⟨_, heq⟩
    · rw [Function.comp_apply, heq]
      exact room_of_running (window_pos hreg) hends hlatest hlater hc hg hrunning
    · -- In a new window there is room for what the tier can admit at all.
      rw [Function.comp_apply, heq]
      simpa [Gauge.remaining] using hcapacity c hc g hg
  rw [← denial?_rollAll (htable ▸ hreg) hg'] at hroom
  simp only [reserve, hg', hroom]
  exact ⟨_, _, rfl⟩

end Limiter

/-! ## The earliest instant -/

namespace Ledger

variable {table : Table} {owner : Nat} {ledger : Ledger} {now : Timestamp}

/-- **A refusal names the earliest instant at which to ask again.**  In every state that a limiter
can be in, if a reservation is refused, then it is refused again after whatever happens before the
instant named, releases apart; a clock that does not go back need only stay before it.  If nothing
happens, it is admitted at that instant and at any later one, provided that no charge exceeds the
capacity of its tier. -/
theorem retryAt_of_run {tiers : List Tier} (hb : Table.build tiers = .ok table)
    {turns : List (Turn owner)} (hrun : (opening owner table).run turns = .ok ledger)
    (hends : ∀ g ∈ ledger.limiter.gauges, g.EndsInRange now) {tier : String} {q : Quota}
    (hq : table.quota? tier = some q) {l' : Limiter} {d : Denial}
    (hrefused : ledger.limiter.reserve tier now = .ok (l', .error (.exceeded d))) :
    (∀ (more : List (Turn owner)) (later : Timestamp),
      (∀ t ∈ more, t.operation.givesBack = false ∧ t.now < d.retryAt ∧ Fits table t) →
      later < d.retryAt → Fits table (⟨later, .reserve tier⟩ : Turn owner) →
      ∃ ledger' l'' d', Ledger.run { ledger with limiter := l' } more = .ok ledger' ∧
        ledger'.limiter.reserve tier later = .ok (l'', .error (.exceeded d'))) ∧
    ((∀ c ∈ q.charges, ∀ target, table.quotas[c.position]? = some target →
        c.units ≤ target.capacity) →
      ∀ later, d.retryAt ≤ later → ∃ l'' r, l'.reserve tier later = .ok (l'', .ok r)) := by
  have hr := Table.regular_of_build hb
  obtain ⟨hkept, _⟩ := balanced_of_run hr hrun
  have hreg := hkept.regular hr
  rw [← hkept.table_eq] at hq
  constructor
  · intro more later hmore hlater hfits
    obtain ⟨hkept', hmoves⟩ := step_moves hkept hr (step_of_refused owner hrefused)
    obtain ⟨hrange, hnow⟩ := inRange_of_ends hkept hends
    have hrange' := hrange.of_moves hkept hnow hmoves
    have hmore' : ∀ t ∈ more, Fits table t := fun t ht => (hmore t ht).2.2
    obtain ⟨ledger', hrun'⟩ := run_isOk hr hmore' hkept' hrange'
    obtain ⟨hkept'', hrange''⟩ := inRange_of_run hr hmore' hkept' hrange' hrun'
    have hreg' := hkept''.regular hr
    obtain ⟨⟨l'', result⟩, hreserve⟩ := Limiter.reserve_isOk tier (Limiter.charges_rise hreg')
      (hrange''.endsInRange hkept'' hfits)
    -- The tier that was named has no more room than it had then.
    obtain ⟨c, hc, target, start, room, htight, hroom, hretry⟩ :=
      Limiter.tight_of_refused hreg hq hrefused
    have hbefore : ∀ t : Timestamp, t < d.retryAt → t.nanos < start.nanos + target.window.nanos :=
      fun t ht => hretry ▸ ht
    obtain ⟨-, htight'⟩ := tight_of_run hr hkept' htight
      (fun t ht => ⟨(hmore t ht).1, hbefore _ (hmore t ht).2.1⟩) hrun'
    obtain ⟨d', rfl⟩ := Limiter.refused_of_tight hreg'
      ((hkept''.table_eq.trans hkept.table_eq.symm) ▸ hq) hc htight' hroom (hbefore _ hlater)
      hreserve
    exact ⟨ledger', l'', d', hrun', hreserve⟩
  · intro hcapacity later hlater
    refine Limiter.reserve_of_waited hreg hends hq hrefused (fun c hc g hg => ?_) hlater
    exact hcapacity c hc g.quota (by rw [hkept.getElem?_quotas, hg, Option.map_some])

/-- What others ask for before the instant that a refusal named. -/
def meanwhile : List (Turn 1) :=
  [⟨⟨300000000, false⟩, .usages⟩, ⟨⟨400000000, false⟩, .record 0⟩,
    ⟨⟨700000000, false⟩, .reserve "weight"⟩]

/-- A third order is refused until its second is over. -/
theorem retryAt_twoOrders : Table.build linkedTiers = .ok linkedTable ∧
    ∃ ledger l' d ledger' l'' d' l₁ r, (opening 1 linkedTable).run twoOrders = .ok ledger ∧
      ledger.limiter.reserve "orders" ⟨200000000, false⟩ = .ok (l', .error (.exceeded d)) ∧
      d.retryAt = ⟨1000000000, false⟩ ∧
      Ledger.run { ledger with limiter := l' } meanwhile = .ok ledger' ∧
      ledger'.limiter.reserve "orders" ⟨999999999, false⟩ = .ok (l'', .error (.exceeded d')) ∧
      l'.reserve "orders" ⟨1000000000, false⟩ = .ok (l₁, .ok r) := by
  have hb : Table.build linkedTiers = .ok linkedTable := rfl
  obtain ⟨ledger, hrun⟩ : ∃ d, (opening 1 linkedTable).run twoOrders = .ok d := ⟨_, rfl⟩
  have hends := endsInRange_of_run ⟨200000000, false⟩ (Table.regular_of_build hb) hrun
    (by decide) (by decide)
  obtain ⟨l', d, hrefused⟩ : ∃ l' d, ledger.limiter.reserve "orders" ⟨200000000, false⟩ =
      .ok (l', .error (.exceeded d)) := by
    cases hrun
    exact ⟨_, _, rfl⟩
  obtain ⟨hbefore, hafter⟩ := retryAt_of_run hb hrun hends rfl hrefused
  cases hrun
  cases hrefused
  obtain ⟨ledger', l'', d', hrun', hagain⟩ :=
    hbefore meanwhile ⟨999999999, false⟩ (by decide) (by decide) (by decide)
  obtain ⟨l₁, r, hadmitted⟩ := hafter (by decide) ⟨1000000000, false⟩ (by decide)
  exact ⟨hb, _, _, _, ledger', l'', d', l₁, r, rfl, rfl, rfl, hrun', hagain, hadmitted⟩

end Ledger

end SpotGateway
