import SpotGateway.Proofs.RateLimit.Conservation

/-!
# What any window of time admits

Windows of a tier start at least a window apart, so that no span of one window meets more than two
of them.  This bounds what is taken within any such span, wherever it begins.

* `Gauge.Later`, `Ledger.later_of_run` — windows of a tier follow one another;
* `Gauge.Places` — where a reservation lies, seen from the window that runs;
* `Ledger.Spaced`, `Ledger.Spaced.of_moves` — reservations two epochs apart are more than a window
  apart;
* `Ledger.debitedWithin` — what is taken within a span of time;
* `Ledger.windows_of_run` — the bounds, for every run by a clock that never goes back.
-/

set_option autoImplicit false

namespace SpotGateway

/-! ## Windows follow one another -/

namespace Gauge

variable {window : Nat} {now issued start : Timestamp} {epoch : Nat} {g g' : Gauge}

/-- The same tier at a later moment. -/
structure Later (window : Nat) (g g' : Gauge) : Prop where
  epoch_le : g.epoch ≤ g'.epoch
  start_eq : g.epoch = g'.epoch → g'.start = g.start
  /-- Each epoch takes at least a window. -/
  start_le : g.epoch < g'.epoch → ∀ s, g.start = some s → ∃ s', g'.start = some s' ∧
    s.nanos + ((g'.epoch - g.epoch) * window : Nat) ≤ s'.nanos

theorem Later.refl (window : Nat) (g : Gauge) : Later window g g :=
  ⟨Nat.le_refl _, fun _ => rfl, fun h => absurd h (Nat.lt_irrefl _)⟩

theorem Later.roll (h : Later window g g') (hwindow : g'.quota.window.nanos = window)
    (now : Timestamp) : Later window g (g'.roll now) := by
  rcases roll_eq now g' with ⟨_, heq⟩ | ⟨hover, heq⟩
  · rw [heq]
    exact h
  · have hle := h.epoch_le
    rw [heq]
    refine ⟨by simp only; omega, fun he => by simp only at he; omega, fun _ s hs => ?_⟩
    refine ⟨now, rfl, ?_⟩
    simp only
    rw [Nat.sub_add_comm hle, Nat.succ_mul]
    by_cases he : g.epoch = g'.epoch
    · have := since_of_isOver ((h.start_eq he).trans hs) hover
      rw [hwindow, Timestamp.since] at this
      simp only [he, Nat.sub_self, Nat.zero_mul]
      omega
    · obtain ⟨s', hs', hstart⟩ := h.start_le (by omega) s hs
      have := since_of_isOver hs' hover
      rw [hwindow, Timestamp.since] at this
      omega

/-- Where a reservation of an epoch lies, seen from the window that runs. -/
structure Places (g : Gauge) (issued : Timestamp) (epoch : Nat) (start : Timestamp) : Prop where
  start_eq : g.start = some start
  epoch_le : epoch ≤ g.epoch
  within : epoch = g.epoch → start.nanos ≤ issued.nanos ∧
    issued.nanos < start.nanos + g.quota.window.nanos
  before : epoch < g.epoch → issued.nanos < start.nanos
  long_before : epoch + 1 < g.epoch → issued.nanos + g.quota.window.nanos < start.nanos

theorem Places.roll (h : g.Places issued epoch start) (now : Timestamp) :
    ∃ start', (g.roll now).Places issued epoch start' := by
  rcases roll_eq now g with ⟨_, heq⟩ | ⟨hover, heq⟩
  · rw [heq]
    exact ⟨start, h⟩
  · have hle := h.epoch_le
    have hsince := since_of_isOver h.start_eq hover
    rw [Timestamp.since] at hsince
    have hbefore : issued.nanos < now.nanos := by
      by_cases he : epoch = g.epoch
      · have := (h.within he).2
        omega
      · have := h.before (by omega)
        omega
    rw [heq]
    refine ⟨now, rfl, by simp only; omega, fun he => by simp only at he; omega,
      fun _ => hbefore, fun he => ?_⟩
    have := h.before (by simpa using he)
    simp only
    omega

/-- A window that runs has started, if windows did not start in the future. -/
theorem start_le_roll (h : ∀ s, g.start = some s → s ≤ now) :
    ∀ s, (g.roll now).start = some s → s ≤ now := by
  intro s hs
  rcases roll_eq now g with ⟨_, heq⟩ | ⟨_, heq⟩
  · exact h s (by rwa [heq] at hs)
  · rw [heq] at hs
    cases hs
    exact Int.le_refl _

end Gauge

/-- Units that an entry has taken from the tier at a position, if it was issued from `start` on and
before `stop` and has not been released. -/
def Entry.weightWithin (table : Table) (e : Entry) (position : Nat) (start stop : Int) : Nat :=
  if e.fate ≠ .released ∧ start ≤ e.issuedAt.nanos ∧ e.issuedAt.nanos < stop then
    table.unitsAt e.tier position
  else 0

theorem Entry.weightWithin_le (table : Table) (e : Entry) (p : Nat) (start stop : Int) :
    e.weightWithin table p start stop ≤ table.unitsAt e.tier p := by
  unfold weightWithin
  split
  · exact Nat.le_refl _
  · exact Nat.zero_le _

theorem Entry.within_of_weightWithin {table : Table} {e : Entry} {p : Nat} {start stop : Int}
    (h : 0 < e.weightWithin table p start stop) : 0 < table.unitsAt e.tier p ∧
      start ≤ e.issuedAt.nanos ∧ e.issuedAt.nanos < stop ∧ e.fate ≠ .released := by
  unfold weightWithin at h
  split at h
  · rename_i hin
    exact ⟨h, hin.2.1, hin.2.2, hin.1⟩
  · cases h

namespace Ledger

variable {table : Table} {owner : Nat} {now : Timestamp} {d d' : Ledger}

theorem Kept.getElem?_quotas (hd : d.Kept table owner) (p : Nat) :
    table.quotas[p]? = d.limiter.gauges[p]?.map Gauge.quota := by
  rw [← hd.quotas, List.getElem?_map]

/-- A step looks at a gauge, and then changes its count at most. -/
theorem Moves.gauge (hm : Moves table now d d') {p : Nat} {g' : Gauge}
    (hg' : d'.limiter.gauges[p]? = some g') :
    ∃ g used, d.limiter.gauges[p]? = some g ∧
      (g' = { g with used } ∨ g' = { g.roll now with used }) := by
  cases hm with
  | look rolled entries =>
    obtain ⟨g, hg, rfl | rfl⟩ := rolled.getElem? hg'
    · exact ⟨_, _, hg, Or.inl rfl⟩
    · exact ⟨_, _, hg, Or.inr rfl⟩
  | reserve e gauges rolled charged room running entries issuedAt epochs fate genuine =>
    rw [charged, Option.map_eq_some_iff] at hg'
    obtain ⟨g₁, hg₁, rfl⟩ := hg'
    obtain ⟨g, hg, rfl | rfl⟩ := rolled.getElem? hg₁
    · exact ⟨_, _, hg, Or.inl rfl⟩
    · exact ⟨_, _, hg, Or.inr rfl⟩
  | release number e entry held credited entries =>
    rw [credited, Option.map_eq_some_iff] at hg'
    obtain ⟨g, hg, rfl⟩ := hg'
    exact ⟨_, _, hg, Or.inl rfl⟩
  | spend number e fate entry held spent gauges entries =>
    rw [gauges] at hg'
    exact ⟨_, _, hg', Or.inl rfl⟩

/-- Windows of a tier follow one another along every run, whatever its clock shows. -/
theorem later_of_run (hr : table.Regular) {turns : List (Turn owner)} (hd : d.Kept table owner)
    (h : d.run turns = .ok d') {p : Nat} {q : Quota} (hq : table.quotas[p]? = some q) {g g' : Gauge}
    (hg : d.limiter.gauges[p]? = some g) (hg' : d'.limiter.gauges[p]? = some g') :
    Gauge.Later q.window.nanos g g' := by
  refine (run_keeps (P := fun e => ∀ g', e.limiter.gauges[p]? = some g' →
    Gauge.Later q.window.nanos g g') hr ?_ hd ?_ h).2 g' hg'
  · intro t _ e e' he hm hlater g' hg'
    obtain ⟨g₁, used, hg₁, heq⟩ := hm.gauge hg'
    have hquota := he.getElem?_quotas p
    rw [hq, hg₁] at hquota
    cases hquota
    have hlater₁ := hlater g₁ hg₁
    rcases heq with rfl | rfl
    · exact ⟨hlater₁.epoch_le, hlater₁.start_eq, hlater₁.start_le⟩
    · have hrolled := hlater₁.roll rfl t.now
      exact ⟨hrolled.epoch_le, hrolled.start_eq, hrolled.start_le⟩
  · intro g' hg'
    rw [hg] at hg'
    cases hg'
    exact Gauge.Later.refl _ _

/-! ## Reservations two epochs apart -/

/-- Where the reservations that take from the tier at a position lie, and that no window starts
after what the clock is still to show. -/
structure Spaced (table : Table) (p : Nat) (upcoming : List (Turn owner)) (d : Ledger) : Prop where
  started : ∀ g, d.limiter.gauges[p]? = some g → ∀ s, g.start = some s → ∀ t ∈ upcoming, s ≤ t.now
  placed : ∀ e ∈ d.entries, 0 < table.unitsAt e.tier p → ∀ g, d.limiter.gauges[p]? = some g →
    ∃ epoch s, e.epochs[p]? = some epoch ∧ g.Places e.issuedAt epoch s
  apart : ∀ e ∈ d.entries, 0 < table.unitsAt e.tier p →
    ∀ e' ∈ d.entries, 0 < table.unitsAt e'.tier p →
    ∀ epoch epoch', e.epochs[p]? = some epoch → e'.epochs[p]? = some epoch' → epoch + 1 < epoch' →
    ∀ q, table.quotas[p]? = some q → e.issuedAt.nanos + q.window.nanos < e'.issuedAt.nanos

theorem Spaced.opening (table : Table) (p : Nat) (turns : List (Turn owner)) :
    (opening owner table).Spaced table p turns := by
  refine ⟨?_, (fun e he => by cases he), fun e he => by cases he⟩
  intro g hg s hs
  simp only [Ledger.opening, Limiter.create, List.getElem?_map, Option.map_eq_some_iff] at hg
  obtain ⟨q, _, rfl⟩ := hg
  cases hs

/-- What becomes of an entry does not matter to where it lies. -/
theorem Spaced.of_entries {p : Nat} {upcoming : List (Turn owner)} (h : d.Spaced table p upcoming)
    (hgauges : d'.limiter.gauges[p]?.map (fun g => (g.quota, g.start, g.epoch)) =
      d.limiter.gauges[p]?.map fun g => (g.quota, g.start, g.epoch))
    (hentries : ∀ e' ∈ d'.entries, ∃ e ∈ d.entries,
      e'.tier = e.tier ∧ e'.epochs = e.epochs ∧ e'.issuedAt = e.issuedAt) :
    d'.Spaced table p upcoming := by
  have gauge : ∀ g', d'.limiter.gauges[p]? = some g' → ∃ g, d.limiter.gauges[p]? = some g ∧
      g.quota = g'.quota ∧ g.start = g'.start ∧ g.epoch = g'.epoch := by
    intro g' hg'
    rw [hg', Option.map_some, eq_comm, Option.map_eq_some_iff] at hgauges
    simpa using hgauges
  constructor
  · intro g' hg' s hs
    obtain ⟨g, hg, _, hstart, _⟩ := gauge g' hg'
    exact h.started g hg s (hstart.trans hs)
  · intro e' he' hpos g' hg'
    obtain ⟨e, he, htier, hepochs, hissued⟩ := hentries e' he'
    obtain ⟨g, hg, hquota, hstart, hepoch⟩ := gauge g' hg'
    rw [htier] at hpos
    obtain ⟨epoch, s, hep, hplaces⟩ := h.placed e he hpos g hg
    refine ⟨epoch, s, hepochs ▸ hep, ?_⟩
    obtain ⟨h₁, h₂, h₃, h₄, h₅⟩ := hplaces
    rw [hquota, hepoch, ← hissued] at *
    exact ⟨hstart ▸ h₁, h₂, h₃, h₄, h₅⟩
  · intro e₁ he₁ hpos₁ e₂ he₂ hpos₂ epoch₁ epoch₂ hep₁ hep₂ hlt q hq
    obtain ⟨e₁', he₁', htier₁, hepochs₁, hissued₁⟩ := hentries e₁ he₁
    obtain ⟨e₂', he₂', htier₂, hepochs₂, hissued₂⟩ := hentries e₂ he₂
    rw [hissued₁, hissued₂]
    exact h.apart e₁' he₁' (htier₁ ▸ hpos₁) e₂' he₂' (htier₂ ▸ hpos₂) epoch₁ epoch₂
      (hepochs₁ ▸ hep₁) (hepochs₂ ▸ hep₂) hlt q hq

theorem Spaced.of_rolled {p : Nat} {t : Turn owner} {rest : List (Turn owner)}
    (h : d.Spaced table p (t :: rest)) (hclock : ∀ u ∈ rest, t.now ≤ u.now)
    (hrolled : Rolled t.now d.limiter.gauges d'.limiter.gauges)
    (hentries : d'.entries = d.entries) : d'.Spaced table p (t :: rest) := by
  constructor
  · intro g' hg' s hs u hu
    obtain ⟨g, hg, rfl | rfl⟩ := hrolled.getElem? hg'
    · exact h.started _ hg s hs u hu
    · have hle : s ≤ t.now :=
        Gauge.start_le_roll (fun s hs => h.started g hg s hs t List.mem_cons_self) s hs
      rcases List.mem_cons.mp hu with rfl | hu
      · exact hle
      · exact Int.le_trans hle (hclock u hu)
  · intro e he hpos g' hg'
    rw [hentries] at he
    obtain ⟨g, hg, heq⟩ := hrolled.getElem? hg'
    obtain ⟨epoch, s, hepoch, hplaces⟩ := h.placed e he hpos g hg
    rcases heq with rfl | rfl
    · exact ⟨epoch, s, hepoch, hplaces⟩
    · obtain ⟨s', hplaces'⟩ := hplaces.roll t.now
      exact ⟨epoch, s', hepoch, hplaces'⟩
  · rw [hentries]
    exact h.apart

/-- Where an entry lies, whose epoch is known. -/
theorem Spaced.places {p : Nat} {upcoming : List (Turn owner)} (h : d.Spaced table p upcoming)
    {e : Entry} (he : e ∈ d.entries) (hpos : 0 < table.unitsAt e.tier p) {g : Gauge}
    (hg : d.limiter.gauges[p]? = some g) {epoch : Nat} (hepoch : e.epochs[p]? = some epoch) :
    ∃ s, g.Places e.issuedAt epoch s := by
  obtain ⟨epoch', s, hepoch', hplaces⟩ := h.placed e he hpos g hg
  rw [hepoch] at hepoch'
  cases hepoch'
  exact ⟨s, hplaces⟩

/-- A window that runs has started, and is not over. -/
theorem Spaced.running {p : Nat} {t : Turn owner} {rest : List (Turn owner)}
    (h : d.Spaced table p (t :: rest)) {g : Gauge} (hg : d.limiter.gauges[p]? = some g)
    (hrunning : g.isOver t.now = false) : ∃ s, g.start = some s ∧ s.nanos ≤ t.now.nanos ∧
      t.now.nanos < s.nanos + g.quota.window.nanos := by
  obtain ⟨s, hs, hsince⟩ := Gauge.start_of_not_isOver hrunning
  have hle : s.nanos ≤ t.now.nanos := h.started g hg s hs t List.mem_cons_self
  rw [Timestamp.since] at hsince
  exact ⟨s, hs, hle, by omega⟩

/-- A new entry lies in the window that runs, and more than a window after what is two epochs
back. -/
theorem Spaced.of_charged {p : Nat} {t : Turn owner} {rest : List (Turn owner)}
    (h : d.Spaced table p (t :: rest)) (hd : d.Kept table owner) {e : Entry}
    (hcharged : ∀ p : Nat, d'.limiter.gauges[p]? =
      d.limiter.gauges[p]?.map (Gauge.charge (table.unitsAt e.tier p)))
    (hrunning : ∀ (p : Nat) (g : Gauge), d.limiter.gauges[p]? = some g →
      0 < table.unitsAt e.tier p → g.isOver t.now = false)
    (hentries : d'.entries = d.entries ++ [e]) (hissued : e.issuedAt = t.now)
    (hepochs : e.epochs = d'.limiter.gauges.map Gauge.epoch) :
    d'.Spaced table p (t :: rest) := by
  have hepoch : ∀ epoch, e.epochs[p]? = some epoch ↔
      ∃ g, d.limiter.gauges[p]? = some g ∧ g.epoch = epoch := by
    intro epoch
    simp [hepochs, hcharged]
  constructor
  · intro g' hg' s hs
    rw [hcharged, Option.map_eq_some_iff] at hg'
    obtain ⟨g, hg, rfl⟩ := hg'
    exact h.started g hg s hs
  · intro e' he' hpos g' hg'
    rw [hcharged, Option.map_eq_some_iff] at hg'
    obtain ⟨g, hg, rfl⟩ := hg'
    rw [hentries, List.mem_append, List.mem_singleton] at he'
    rcases he' with he' | rfl
    · obtain ⟨epoch, s, hep, h₁, h₂, h₃, h₄, h₅⟩ := h.placed e' he' hpos g hg
      exact ⟨epoch, s, hep, h₁, h₂, h₃, h₄, h₅⟩
    · obtain ⟨s, hs, hle, hlt⟩ := h.running hg (hrunning p g hg hpos)
      rw [← hissued] at hle hlt
      refine ⟨g.epoch, s, (hepoch _).mpr ⟨g, hg, rfl⟩, hs, Nat.le_refl _, fun _ => ⟨hle, hlt⟩,
        ?_, ?_⟩
      · exact fun h => absurd h (Nat.lt_irrefl _)
      · exact fun h => absurd h (Nat.not_lt_of_le (Nat.le_succ _))
  · intro e₁ he₁ hpos₁ e₂ he₂ hpos₂ epoch₁ epoch₂ hep₁ hep₂ hlt q hq
    rw [hentries, List.mem_append, List.mem_singleton] at he₁ he₂
    rcases he₁ with he₁ | rfl
    · rcases he₂ with he₂ | rfl
      · exact h.apart e₁ he₁ hpos₁ e₂ he₂ hpos₂ epoch₁ epoch₂ hep₁ hep₂ hlt q hq
      · obtain ⟨g, hg, rfl⟩ := (hepoch _).mp hep₂
        obtain ⟨s, hs, hle, _⟩ := h.running hg (hrunning p g hg hpos₂)
        obtain ⟨s', hplaces⟩ := h.places he₁ hpos₁ hg hep₁
        rw [hplaces.start_eq] at hs
        cases hs
        have hbefore := hplaces.long_before hlt
        have hquota := hd.getElem?_quotas p
        rw [hq, hg] at hquota
        cases hquota
        rw [hissued]
        omega
    · -- No other entry is of a later epoch than the new one.
      obtain ⟨g, hg, rfl⟩ := (hepoch _).mp hep₁
      rcases he₂ with he₂ | rfl
      · obtain ⟨s, hplaces⟩ := h.places he₂ hpos₂ hg hep₂
        have hle := hplaces.epoch_le
        omega
      · rw [hep₁] at hep₂
        cases hep₂
        omega

theorem Spaced.of_moves {p : Nat} {t : Turn owner} {rest : List (Turn owner)}
    (h : d.Spaced table p (t :: rest)) (hd : d.Kept table owner)
    (hclock : ∀ u ∈ rest, t.now ≤ u.now) (hm : Moves table t.now d d') :
    d'.Spaced table p rest := by
  suffices h' : d'.Spaced table p (t :: rest) from
    ⟨fun g hg s hs u hu => h'.started g hg s hs u (List.mem_cons_of_mem _ hu), h'.placed, h'.apart⟩
  have hset : ∀ (number : Nat) (e : Entry) (fate : Fate), d.entries[number]? = some e →
      ∀ e' ∈ d.entries.set number { e with fate }, ∃ e ∈ d.entries,
        e'.tier = e.tier ∧ e'.epochs = e.epochs ∧ e'.issuedAt = e.issuedAt := by
    intro number e fate he e' he'
    obtain ⟨e₀, he₀, fate, rfl⟩ := origin_of_mem_set he he'
    exact ⟨e₀, he₀, rfl, rfl, rfl⟩
  cases hm with
  | look rolled entries => exact h.of_rolled hclock rolled entries
  | reserve e gauges rolled charged room running entries issuedAt epochs fate genuine =>
    -- The gauges are looked at before they are charged.
    have hlooked : Spaced table p (t :: rest) ⟨{ d.limiter with gauges }, d.entries⟩ :=
      h.of_rolled hclock rolled rfl
    exact hlooked.of_charged (hd.of_moves rfl (.look rolled rfl)) charged running entries issuedAt
      epochs
  | release number e entry held credited entries =>
    refine h.of_entries ?_ fun e' he' => hset number e _ entry e' (entries ▸ he')
    rw [credited, Option.map_map]
    rfl
  | spend number e fate entry held spent gauges entries =>
    refine h.of_entries ?_ fun e' he' => hset number e fate entry e' (entries ▸ he')
    rw [gauges]

/-- By a clock that never goes back, runs keep reservations spaced. -/
theorem spaced_of_run (hr : table.Regular) (p : Nat) {turns : List (Turn owner)}
    (hclock : turns.Pairwise fun t u => t.now ≤ u.now) (hd : d.Kept table owner)
    (h : d.Spaced table p turns) (hrun : d.run turns = .ok d') :
    d'.Spaced table p ([] : List (Turn owner)) := by
  induction turns generalizing d with
  | nil =>
    cases hrun
    exact h
  | cons t rest ih =>
    rw [run, List.foldlM_cons, bind_eq_ok] at hrun
    obtain ⟨e, he, hrun⟩ := hrun
    rw [List.pairwise_cons] at hclock
    obtain ⟨hkept, hmoves⟩ := step_moves hd hr he
    exact ih hclock.2 hkept (h.of_moves hd hclock.1 hmoves) hrun

/-! ## Spans of one window -/

/-- Units that reservations issued from `start` on and before `stop` have taken from the tier at a
position, without those that were released. -/
def debitedWithin (table : Table) (d : Ledger) (position : Nat) (start stop : Int) : Nat :=
  (d.entries.map fun e => e.weightWithin table position start stop).sum

/-- The epochs that they were admitted in. -/
def epochsWithin (table : Table) (d : Ledger) (position : Nat) (start stop : Int) : List Nat :=
  (d.entries.filter fun e => 0 < e.weightWithin table position start stop).filterMap fun e =>
    e.epochs[position]?

theorem mem_epochsWithin {p epoch : Nat} {start stop : Int} :
    epoch ∈ d.epochsWithin table p start stop ↔
      ∃ e ∈ d.entries, 0 < e.weightWithin table p start stop ∧ e.epochs[p]? = some epoch := by
  simp [epochsWithin, and_assoc]

/-- A span of one window meets two epochs at most: the first that it meets and the one after it. -/
theorem Spaced.two_epochs {p : Nat} {upcoming : List (Turn owner)} (h : d.Spaced table p upcoming)
    {q : Quota} {g : Gauge} (hq : table.quotas[p]? = some q) (hg : d.limiter.gauges[p]? = some g)
    (start : Int) : ∃ epoch, ∀ e ∈ d.entries,
      0 < e.weightWithin table p start (start + q.window.nanos) →
        e.epochs[p]? = some epoch ∨ e.epochs[p]? = some (epoch + 1) := by
  cases hmin : (d.epochsWithin table p start (start + q.window.nanos)).min? with
  | none =>
    refine ⟨0, fun e he hpos => ?_⟩
    obtain ⟨epoch, _, hepoch, _⟩ := h.placed e he (Entry.within_of_weightWithin hpos).1 g hg
    have := mem_epochsWithin.mpr ⟨e, he, hpos, hepoch⟩
    rw [List.min?_eq_none_iff.mp hmin] at this
    cases this
  | some first =>
    obtain ⟨hmem, hfirst⟩ := List.min?_eq_some_iff.mp hmin
    obtain ⟨e₀, he₀, hpos₀, hepoch₀⟩ := mem_epochsWithin.mp hmem
    refine ⟨first, fun e he hpos => ?_⟩
    obtain ⟨hunits, hstart, hstop⟩ := Entry.within_of_weightWithin hpos
    obtain ⟨hunits₀, hstart₀, hstop₀⟩ := Entry.within_of_weightWithin hpos₀
    obtain ⟨epoch, _, hepoch, _⟩ := h.placed e he hunits g hg
    have hle := hfirst epoch (mem_epochsWithin.mpr ⟨e, he, hpos, hepoch⟩)
    have hlt : ¬ first + 1 < epoch := by
      intro hlt
      have := h.apart e₀ he₀ hunits₀ e he hunits first epoch hepoch₀ hepoch hlt q hq
      omega
    rw [hepoch]
    simp only [Option.some.injEq]
    omega

/-- What is taken within a span was debited to the epochs that it meets. -/
theorem debitedWithin_le {p epoch : Nat} {start stop : Int}
    (h : ∀ e ∈ d.entries, 0 < e.weightWithin table p start stop →
      e.epochs[p]? = some epoch ∨ e.epochs[p]? = some (epoch + 1)) :
    d.debitedWithin table p start stop ≤
      d.debited table p epoch + d.debited table p (epoch + 1) := by
  rw [debited, debited, ← List.sum_map_add]
  refine List.sum_le_sum fun e he => ?_
  by_cases hpos : 0 < e.weightWithin table p start stop
  · have hheld := (Entry.within_of_weightWithin hpos).2.2.2
    have hle := Entry.weightWithin_le table e p start stop
    rcases h e he hpos with hepoch | hepoch <;> simp [Entry.weight, hheld, hepoch] <;> omega
  · omega

/-- **Any span of one window admits at most twice the capacity of a tier.**  Along every run by a
clock that never goes back, windows of a tier start at least a window apart, no epoch is debited
more than the capacity, and no span of one window, wherever it begins, more than twice of it. -/
theorem windows_of_run {tiers : List Tier} (hb : Table.build tiers = .ok table)
    {turns : List (Turn owner)} (hclock : turns.Pairwise fun t u => t.now ≤ u.now)
    (h : (opening owner table).run turns = .ok d) {p : Nat} {q : Quota}
    (hq : table.quotas[p]? = some q) :
    (∀ before after d₀ g₀ g, turns = before ++ after → (opening owner table).run before = .ok d₀ →
      d₀.limiter.gauges[p]? = some g₀ → d.limiter.gauges[p]? = some g →
      g₀.Later q.window.nanos g) ∧
    (∀ epoch, d.debited table p epoch ≤ q.capacity) ∧
    ∀ start : Int, d.debitedWithin table p start (start + q.window.nanos) ≤ 2 * q.capacity := by
  have hr := Table.regular_of_build hb
  obtain ⟨hkept, hbalanced⟩ := balanced_of_run hr h
  obtain ⟨g, hg, hquota⟩ : ∃ g, d.limiter.gauges[p]? = some g ∧ g.quota = q := by
    have := hkept.getElem?_quotas p
    rwa [hq, eq_comm, Option.map_eq_some_iff] at this
  have hcapacity : ∀ epoch, d.debited table p epoch ≤ q.capacity :=
    fun epoch => hquota ▸ hbalanced.debited_le p g epoch hg
  refine ⟨?_, hcapacity, ?_⟩
  · rintro before after d₀ g₀ g rfl h₀ hg₀ hg
    obtain ⟨d₁, h₁, hafter⟩ := run_append_eq_ok.mp h
    rw [h₀] at h₁
    cases h₁
    exact later_of_run hr (balanced_of_run hr h₀).1 hafter hq hg₀ hg
  · intro start
    have hspaced := spaced_of_run hr p hclock (Kept.opening table owner) (.opening table p turns) h
    obtain ⟨epoch, hepoch⟩ := hspaced.two_epochs hq hg start
    have := debitedWithin_le hepoch
    have := hcapacity epoch
    have := hcapacity (epoch + 1)
    omega

/-- Reservations at the end of one window and at the start of the next. -/
def acrossWindows : List (Turn 1) :=
  [⟨⟨0, false⟩, .usage "orders"⟩, ⟨⟨900000000, false⟩, .reserve "orders"⟩,
    ⟨⟨900000000, false⟩, .reserve "orders"⟩, ⟨⟨1000000000, false⟩, .reserve "orders"⟩,
    ⟨⟨1000000000, false⟩, .reserve "orders"⟩]

/-- The bound is met. -/
theorem windows_acrossWindows : Table.build linkedTiers = .ok linkedTable ∧
    (acrossWindows.Pairwise fun t u => t.now ≤ u.now) ∧
    ∃ d, (opening 1 linkedTable).run acrossWindows = .ok d ∧
      d.debitedWithin linkedTable 0 900000000 1900000000 = 2 * 2 ∧
      ∀ start : Int, d.debitedWithin linkedTable 0 start (start + 1000000000) ≤ 2 * 2 := by
  have hb : Table.build linkedTiers = .ok linkedTable := rfl
  have hclock : acrossWindows.Pairwise fun t u => t.now ≤ u.now := by decide
  obtain ⟨d, hd⟩ : ∃ d, (opening 1 linkedTable).run acrossWindows = .ok d := ⟨_, rfl⟩
  obtain ⟨-, -, hspan⟩ := windows_of_run hb hclock hd (p := 0) rfl
  refine ⟨hb, hclock, d, hd, ?_, hspan⟩
  cases hd
  rfl

end Ledger

end SpotGateway
