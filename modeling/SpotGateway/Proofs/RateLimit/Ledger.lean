import SpotGateway.Proofs.RateLimit.Admission

/-!
# The ledger of a limiter

A ledger follows a limiter through a run and writes down each reservation that is admitted: what was
asked for, when, in which epochs, and what became of it.  What a tier should have counted can then
be read off the ledger and the table alone.

* `Fate`, `Entry`, `Ledger` — with `Ledger.opening`;
* `Operation`, `Turn`, `Ledger.step`, `Ledger.run` — runs at any times, in any order;
* `Entry.weight`, `Ledger.debited` — what an epoch of a tier was debited;
* `Ledger.Kept` — the ledger and its limiter go together;
* `Ledger.Moves`, `Ledger.step_moves` — all that one step can do.
-/

set_option autoImplicit false

namespace SpotGateway

/-- What became of a reservation. -/
inductive Fate where
  /-- It may still be handed back. -/
  | held
  | released
  | recorded
  /-- It never comes back. -/
  | dropped
  deriving DecidableEq, Repr

/-- A reservation that was admitted. -/
structure Entry where
  tier : String
  issuedAt : Timestamp
  /-- In which epoch each tier of the table was then. -/
  epochs : List Nat
  reservation : Reservation
  fate : Fate
  deriving DecidableEq, Repr

/-- A limiter with the reservations it has admitted, in their order. -/
structure Ledger where
  limiter : Limiter
  entries : List Entry
  deriving DecidableEq, Repr

/-- A reservation that another limiter has issued. -/
structure Stray (owner : Nat) where
  reservation : Reservation
  limiter_ne : reservation.limiter ≠ owner

/-- What can be asked of the limiter of that number.  Its own reservations go by the order in which
they were admitted. -/
inductive Operation (owner : Nat) where
  | reserve (tier : String)
  | release (number : Nat)
  | record (number : Nat)
  | drop (number : Nat)
  | releaseStray (stray : Stray owner)
  | recordStray (stray : Stray owner)
  | usage (tier : String)
  | usages

/-- An operation and what the clock shows then. -/
structure Turn (owner : Nat) where
  now : Timestamp
  operation : Operation owner

/-- Units that an entry has taken from an epoch of the tier at a position: what the table says of
its tier, if it was admitted in that epoch and has not been released. -/
def Entry.weight (table : Table) (e : Entry) (position epoch : Nat) : Nat :=
  if e.fate ≠ .released ∧ e.epochs[position]? = some epoch then table.unitsAt e.tier position
  else 0

/-- The reservation is what its entry says. -/
structure Entry.Genuine (table : Table) (owner : Nat) (e : Entry) : Prop where
  limiter : e.reservation.limiter = owner
  unitsOf : ∀ p epoch, e.reservation.unitsOf p epoch =
    if e.epochs[p]? = some epoch then table.unitsAt e.tier p else 0

theorem Entry.Genuine.unitsOf_eq_weight {table : Table} {owner : Nat} {e : Entry}
    (h : e.Genuine table owner) (hfate : e.fate = .held) (p epoch : Nat) :
    e.reservation.unitsOf p epoch = e.weight table p epoch := by
  rw [h.unitsOf, weight, hfate]
  simp

theorem Entry.Genuine.withFate {table : Table} {owner : Nat} {e : Entry} (h : e.Genuine table owner)
    (fate : Fate) : Entry.Genuine table owner { e with fate } :=
  ⟨h.limiter, h.unitsOf⟩

namespace Ledger

variable {table : Table} {owner : Nat}

/-- A limiter that nothing has been reserved from. -/
def opening (owner : Nat) (table : Table) : Ledger := ⟨Limiter.create owner table, []⟩

/-- Units that reservations have taken from an epoch of the tier at a position, without those that
were released. -/
def debited (table : Table) (d : Ledger) (position epoch : Nat) : Nat :=
  (d.entries.map fun e => e.weight table position epoch).sum

/-- Hand a reservation back, unless it was before. -/
def handBack (d : Ledger) (number : Nat) (fate : Fate)
    (take : Limiter → Reservation → Limiter) : Ledger :=
  match d.entries[number]? with
  | some e =>
    if e.fate = .held then
      ⟨take d.limiter e.reservation, d.entries.set number { e with fate }⟩
    else d
  | none => d

/-- One operation. -/
def step (d : Ledger) (t : Turn owner) : Checked Ledger :=
  match t.operation with
  | .reserve tier => do
    match ← d.limiter.reserve tier t.now with
    | (limiter, .ok reservation) =>
      let epochs := limiter.gauges.map Gauge.epoch
      return ⟨limiter, d.entries ++ [⟨tier, t.now, epochs, reservation, .held⟩]⟩
    | (limiter, .error _) => return { d with limiter }
  | .release number => .ok (d.handBack number .released Limiter.release)
  | .record number => .ok (d.handBack number .recorded Limiter.record)
  | .drop number => .ok (d.handBack number .dropped fun l _ => l)
  | .releaseStray stray => .ok { d with limiter := d.limiter.release stray.reservation }
  | .recordStray stray => .ok { d with limiter := d.limiter.record stray.reservation }
  | .usage tier => do
    let (limiter, _) ← d.limiter.usage tier t.now
    return { d with limiter }
  | .usages => do
    let (limiter, _) ← d.limiter.usages t.now
    return { d with limiter }

theorem reserve_of_step {d d' : Ledger} {now : Timestamp} {tier : String}
    (h : d.step (⟨now, .reserve tier⟩ : Turn owner) = .ok d') :
    ∃ result, d.limiter.reserve tier now = .ok (d'.limiter, result) := by
  obtain ⟨⟨limiter, result⟩, hreserve, h⟩ := bind_eq_ok.mp h
  refine ⟨result, hreserve.trans ?_⟩
  cases result <;> cases h <;> rfl

/-- One operation after another. -/
def run (d : Ledger) (turns : List (Turn owner)) : Checked Ledger := turns.foldlM step d

theorem run_append_eq_ok {d d' : Ledger} {turns turns' : List (Turn owner)} :
    d.run (turns ++ turns') = .ok d' ↔ ∃ e, d.run turns = .ok e ∧ e.run turns' = .ok d' := by
  unfold run
  rw [List.foldlM_append, bind_eq_ok]

/-! ## What a step can do -/

/-- The ledger and its limiter go together. -/
structure Kept (table : Table) (owner : Nat) (d : Ledger) : Prop where
  id : d.limiter.id = owner
  quotas : d.limiter.gauges.map Gauge.quota = table.quotas
  genuine : ∀ e ∈ d.entries, e.Genuine table owner

/-- All that one step can do to the gauges and the entries. -/
inductive Moves (table : Table) (now : Timestamp) (d d' : Ledger) : Prop where
  /-- Gauges are looked at. -/
  | look (rolled : Rolled now d.limiter.gauges d'.limiter.gauges)
      (entries : d'.entries = d.entries)
  /-- Gauges are looked at, have room, and are charged. -/
  | reserve (e : Entry) (gauges : List Gauge) (rolled : Rolled now d.limiter.gauges gauges)
      (charged : ∀ p : Nat,
        d'.limiter.gauges[p]? = gauges[p]?.map (Gauge.charge (table.unitsAt e.tier p)))
      (room : ∀ (p : Nat) (g : Gauge), gauges[p]? = some g →
        table.unitsAt e.tier p ≤ g.remaining)
      (running : ∀ (p : Nat) (g : Gauge), gauges[p]? = some g →
        0 < table.unitsAt e.tier p → g.isOver now = false)
      (entries : d'.entries = d.entries ++ [e])
      (issuedAt : e.issuedAt = now)
      (epochs : e.epochs = d'.limiter.gauges.map Gauge.epoch)
      (fate : e.fate = .held)
      (genuine : e.Genuine table d.limiter.id)
  /-- A reservation comes back, and what it holds of epochs that still run is returned. -/
  | release (number : Nat) (e : Entry) (entry : d.entries[number]? = some e)
      (held : e.fate = .held)
      (credited : ∀ p : Nat, d'.limiter.gauges[p]? = d.limiter.gauges[p]?.map fun g =>
        { g with used := g.used - e.weight table p g.epoch })
      (entries : d'.entries = d.entries.set number { e with fate := .released })
  /-- A reservation comes back as spent, or never. -/
  | spend (number : Nat) (e : Entry) (fate : Fate) (entry : d.entries[number]? = some e)
      (held : e.fate = .held) (spent : fate ≠ .released)
      (gauges : d'.limiter.gauges = d.limiter.gauges)
      (entries : d'.entries = d.entries.set number { e with fate })

theorem Kept.quota?_of_gauge? {d : Ledger} (hd : d.Kept table owner) {tier : String} {g : Gauge}
    (h : d.limiter.gauge? tier = some g) :
    table.quota? tier = some g.quota ∧ g.quota ∈ table.quotas := by
  have hfind : table.quota? tier = (d.limiter.gauge? tier).map Gauge.quota := by
    rw [Table.quota?, ← hd.quotas, List.find?_map]
    rfl
  refine ⟨by rw [hfind, h]; rfl, ?_⟩
  rw [← hd.quotas]
  exact List.mem_map_of_mem (List.mem_of_find?_eq_some h)

theorem Kept.quota_mem {d : Ledger} (hd : d.Kept table owner) {p : Nat} {g : Gauge}
    (h : d.limiter.gauges[p]? = some g) : g.quota ∈ table.quotas := by
  rw [← hd.quotas]
  exact List.mem_map_of_mem (List.mem_of_getElem? h)

theorem Kept.window_pos {d : Ledger} (hd : d.Kept table owner) (hr : table.Regular) {p : Nat}
    {g : Gauge} (h : d.limiter.gauges[p]? = some g) : 0 < g.quota.window.nanos :=
  hr.window_pos _ (hd.quota_mem h)

theorem Kept.opening (table : Table) (owner : Nat) : (opening owner table).Kept table owner :=
  ⟨rfl, by simp [Ledger.opening, Limiter.create, Gauge.fresh, Function.comp_def],
    fun _ h => by cases h⟩

/-- Gauges keep their tiers if each of them does. -/
theorem map_quota_eq {gauges gauges' : List Gauge}
    (h : ∀ p : Nat, gauges'[p]?.map Gauge.quota = gauges[p]?.map Gauge.quota) :
    gauges'.map Gauge.quota = gauges.map Gauge.quota := by
  apply List.ext_getElem?
  intro p
  rw [List.getElem?_map, List.getElem?_map, h]

theorem map_quota_of_rolled {now : Timestamp} {gauges gauges' : List Gauge}
    (h : Rolled now gauges gauges') : gauges'.map Gauge.quota = gauges.map Gauge.quota := by
  apply map_quota_eq
  intro p
  rcases h p with he | he <;> rw [he]
  simp [Function.comp_def]

/-- Entries change only in what became of them. -/
theorem origin_of_mem_set {entries : List Entry} {number : Nat} {e e' : Entry} {fate : Fate}
    (he : entries[number]? = some e) (h : e' ∈ entries.set number { e with fate }) :
    ∃ e₀ ∈ entries, ∃ fate, e' = { e₀ with fate } := by
  rcases List.mem_or_eq_of_mem_set h with h | rfl
  · exact ⟨e', h, e'.fate, rfl⟩
  · exact ⟨e, List.mem_of_getElem? he, fate, rfl⟩

/-- Whatever a step can do keeps ledger and limiter together. -/
theorem Kept.of_moves {now : Timestamp} {d d' : Ledger} (hd : d.Kept table owner)
    (hid : d'.limiter.id = d.limiter.id) (hm : Moves table now d d') : d'.Kept table owner := by
  have genuine_set : ∀ (number : Nat) (e : Entry) (fate : Fate), d.entries[number]? = some e →
      ∀ e' ∈ d.entries.set number { e with fate }, e'.Genuine table owner := by
    intro number e fate he e' he'
    obtain ⟨e₀, he₀, fate, rfl⟩ := origin_of_mem_set he he'
    exact (hd.genuine e₀ he₀).withFate fate
  cases hm with
  | look rolled entries =>
    exact ⟨hid.trans hd.id, (map_quota_of_rolled rolled).trans hd.quotas,
      fun e he => hd.genuine e (entries ▸ he)⟩
  | reserve e gauges rolled charged room running entries issuedAt epochs fate genuine =>
    refine ⟨hid.trans hd.id, ?_, ?_⟩
    · rw [← hd.quotas, ← map_quota_of_rolled rolled]
      apply map_quota_eq
      intro p
      simp [charged p, Function.comp_def]
    · intro e' he'
      rw [entries, List.mem_append, List.mem_singleton] at he'
      rcases he' with he' | rfl
      · exact hd.genuine e' he'
      · exact hd.id ▸ genuine
  | release number e entry held credited entries =>
    refine ⟨hid.trans hd.id, ?_, fun e' he' => genuine_set number e _ entry e' (entries ▸ he')⟩
    rw [← hd.quotas]
    apply map_quota_eq
    intro p
    simp [credited p, Function.comp_def]
  | spend number e fate entry held spent gauges entries =>
    exact ⟨hid.trans hd.id, gauges ▸ hd.quotas,
      fun e' he' => genuine_set number e fate entry e' (entries ▸ he')⟩

/-- A tier has room for all that is charged to it, if each charge has. -/
theorem unitsAt_le_remaining {now : Timestamp} {charges : List Charge} {gauges : List Gauge}
    (hrise : (charges.map Charge.position).Pairwise (· < ·))
    (h : Limiter.denial? now charges gauges = .ok none) {p : Nat} {g : Gauge}
    (hg : gauges[p]? = some g) : unitsAt charges p ≤ g.remaining := by
  rcases charges_at hrise p with hnil | ⟨c, hc, rfl, heq⟩
  · simp [unitsAt, hnil]
  · simpa [unitsAt, heq] using Limiter.room_of_denial? h c hc g hg

/-- A tier that is charged has a window that runs. -/
theorem running_of_unitsAt {now : Timestamp} {d : Ledger} (hd : d.Kept table owner)
    (hr : table.Regular) {charges : List Charge}
    (hrise : (charges.map Charge.position).Pairwise (· < ·)) {p : Nat} {g : Gauge}
    (hg : (Limiter.rollAll now charges d.limiter.gauges)[p]? = some g)
    (hunits : 0 < unitsAt charges p) : g.isOver now = false := by
  have hconcerns : concernsAt charges p = true := by
    cases h : concernsAt charges p with
    | true => rfl
    | false =>
      rw [unitsAt_of_not_concernsAt h] at hunits
      omega
  rw [Limiter.getElem?_rollAll hrise, if_pos hconcerns, Option.map_eq_some_iff] at hg
  obtain ⟨g₀, hg₀, rfl⟩ := hg
  exact Gauge.isOver_roll (hd.window_pos hr hg₀)

/-- What a reservation does to the ledger. -/
theorem moves_reserve {d d' : Ledger} (hd : d.Kept table owner) (hr : table.Regular)
    {now : Timestamp} {tier : String} (h : d.step (⟨now, .reserve tier⟩ : Turn owner) = .ok d') :
    d'.limiter.id = d.limiter.id ∧ Moves table now d d' := by
  unfold step at h
  obtain ⟨⟨limiter, result⟩, hreserve, h⟩ := bind_eq_ok.mp h
  rcases Limiter.reserve_cases hreserve with ⟨_, rfl, rfl⟩ | ⟨g, hg, hcases⟩
  · cases h
    exact ⟨rfl, .look (Rolled.refl _ _) rfl⟩
  obtain ⟨hquota, hmem⟩ := hd.quota?_of_gauge? hg
  have hrise := hr.charges_rise g.quota hmem
  have hunits : ∀ p, table.unitsAt tier p = unitsAt g.quota.charges p := by
    intro p
    rw [Table.unitsAt, hquota]
  rcases hcases with ⟨_, _, rfl, rfl⟩ | ⟨hroom, rfl, rfl⟩
  · cases h
    exact ⟨rfl, .look (Limiter.rolled_rollAll hrise _) rfl⟩
  · cases h
    refine ⟨rfl, .reserve _ _ (Limiter.rolled_rollAll hrise _) ?_ ?_ ?_ rfl rfl rfl rfl ⟨rfl, ?_⟩⟩
    · intro p
      rw [hunits]
      exact Limiter.getElem?_chargeAll _ _ p
    · intro p g' hg'
      rw [hunits]
      exact unitsAt_le_remaining hrise hroom hg'
    · intro p g' hg' hpos
      rw [hunits] at hpos
      exact running_of_unitsAt hd hr hrise hg' hpos
    · intro p epoch
      simp only [Limiter.unitsOf_holdingsOf, hunits, List.getElem?_map,
        Limiter.getElem?_chargeAll, Option.map_map, Function.comp_def, Gauge.epoch_charge]

/-- What taking back leaves alone, handing back does. -/
theorem limiter_handBack {α : Type} (f : Limiter → α) (d : Ledger) (number : Nat) (fate : Fate)
    {take : Limiter → Reservation → Limiter} (h : ∀ l r, f (take l r) = f l) :
    f (d.handBack number fate take).limiter = f d.limiter := by
  unfold handBack
  split
  · split
    · exact h _ _
    · rfl
  · rfl

/-- What handing back does to the ledger. -/
theorem moves_handBack {d : Ledger} (hd : d.Kept table owner) (now : Timestamp) (number : Nat) :
    Moves table now d (d.handBack number .released Limiter.release) ∧
      Moves table now d (d.handBack number .recorded Limiter.record) ∧
      Moves table now d (d.handBack number .dropped fun l _ => l) := by
  unfold handBack
  cases he : d.entries[number]? with
  | none => exact ⟨.look (Rolled.refl _ _) rfl, .look (Rolled.refl _ _) rfl,
      .look (Rolled.refl _ _) rfl⟩
  | some e =>
    simp only
    split
    · rename_i hheld
      have hgenuine := hd.genuine e (List.mem_of_getElem? he)
      refine ⟨.release number e he hheld ?_ rfl,
        .spend number e _ he hheld (by decide) (Limiter.gauges_record _ _) rfl,
        .spend number e _ he hheld (by decide) rfl rfl⟩
      intro p
      rw [Limiter.getElem?_release (hgenuine.limiter.trans hd.id.symm)]
      simp only [hgenuine.unitsOf_eq_weight hheld]
    · exact ⟨.look (Rolled.refl _ _) rfl, .look (Rolled.refl _ _) rfl,
        .look (Rolled.refl _ _) rfl⟩

/-- **All that one step can do**, and that it keeps ledger and limiter together. -/
theorem step_moves {d d' : Ledger} (hd : d.Kept table owner) (hr : table.Regular)
    {t : Turn owner} (h : d.step t = .ok d') : d'.Kept table owner ∧ Moves table t.now d d' := by
  suffices hm : d'.limiter.id = d.limiter.id ∧ Moves table t.now d d' from
    ⟨hd.of_moves hm.1 hm.2, hm.2⟩
  have unmoved : Moves table t.now d d := .look (Rolled.refl _ _) rfl
  obtain ⟨now, operation⟩ := t
  cases operation with
  | reserve tier => exact moves_reserve hd hr h
  | release number =>
    cases h
    exact ⟨limiter_handBack Limiter.id _ _ _ Limiter.id_release, (moves_handBack hd now number).1⟩
  | record number =>
    cases h
    exact ⟨limiter_handBack Limiter.id _ _ _ Limiter.id_record, (moves_handBack hd now number).2.1⟩
  | drop number =>
    cases h
    exact ⟨limiter_handBack Limiter.id _ _ _ fun _ _ => rfl, (moves_handBack hd now number).2.2⟩
  | releaseStray stray =>
    cases h
    rw [Limiter.release_of_ne (hd.id ▸ stray.limiter_ne)]
    exact ⟨rfl, unmoved⟩
  | recordStray stray =>
    cases h
    rw [Limiter.record_of_ne (hd.id ▸ stray.limiter_ne)]
    exact ⟨rfl, unmoved⟩
  | usage tier =>
    obtain ⟨⟨limiter, _⟩, husage, h⟩ := bind_eq_ok.mp h
    cases h
    obtain ⟨gauges, rfl, hrolled⟩ := Limiter.rolled_usage husage
    exact ⟨rfl, .look hrolled rfl⟩
  | usages =>
    obtain ⟨⟨limiter, _⟩, husages, h⟩ := bind_eq_ok.mp h
    cases h
    obtain ⟨gauges, rfl, hrolled⟩ := Limiter.rolled_usages husages
    exact ⟨rfl, .look hrolled rfl⟩

/-- What every step keeps, a run keeps. -/
theorem run_keeps {P : Ledger → Prop} (hr : table.Regular) {turns : List (Turn owner)}
    (hstep : ∀ t ∈ turns, ∀ d d', d.Kept table owner → Moves table t.now d d' → P d → P d')
    {d d' : Ledger} (hd : d.Kept table owner) (hp : P d) (h : d.run turns = .ok d') :
    d'.Kept table owner ∧ P d' := by
  induction turns generalizing d with
  | nil =>
    cases h
    exact ⟨hd, hp⟩
  | cons t rest ih =>
    rw [run, List.foldlM_cons, bind_eq_ok] at h
    obtain ⟨e, he, h⟩ := h
    obtain ⟨hkept, hmoves⟩ := step_moves hd hr he
    exact ih (fun u hu => hstep u (List.mem_cons_of_mem _ hu)) hkept
      (hstep t List.mem_cons_self d e hd hmoves hp) h

/-! ## Runs within the range of dates -/

/-- Windows that run end within the range of dates. -/
def InRange (d : Ledger) : Prop :=
  ∀ (p : Nat) (g : Gauge), d.limiter.gauges[p]? = some g → ∀ start, g.start = some start →
    Timestamp.inRange (start.nanos + g.quota.window.nanos) = true

theorem InRange.of_rolled {now : Timestamp} {d : Ledger} (h : d.InRange)
    (hd : d.Kept table owner)
    (hfits : ∀ q ∈ table.quotas, Timestamp.inRange (now.nanos + q.window.nanos) = true)
    {gauges : List Gauge} (hrolled : Rolled now d.limiter.gauges gauges) {p : Nat} {g : Gauge}
    (hg : gauges[p]? = some g) : ∀ start, g.start = some start →
      Timestamp.inRange (start.nanos + g.quota.window.nanos) = true := by
  obtain ⟨g₀, hg₀, heq⟩ := hrolled.getElem? hg
  have hends : g₀.EndsInRange now := ⟨hfits _ (hd.quota_mem hg₀), h p g₀ hg₀⟩
  rcases heq with rfl | rfl
  · exact hends.running
  · exact hends.roll.running

theorem InRange.of_moves {now : Timestamp} {d d' : Ledger} (h : d.InRange)
    (hd : d.Kept table owner)
    (hfits : ∀ q ∈ table.quotas, Timestamp.inRange (now.nanos + q.window.nanos) = true)
    (hm : Moves table now d d') : d'.InRange := by
  cases hm with
  | look rolled entries => exact fun p g hg => h.of_rolled hd hfits rolled hg
  | reserve e gauges rolled charged room running entries issuedAt epochs fate genuine =>
    intro p g' hg'
    rw [charged, Option.map_eq_some_iff] at hg'
    obtain ⟨g, hg, rfl⟩ := hg'
    have hend := h.of_rolled hd hfits rolled hg
    exact hend
  | release number e entry held credited entries =>
    intro p g' hg'
    rw [credited, Option.map_eq_some_iff] at hg'
    obtain ⟨g, hg, rfl⟩ := hg'
    exact h p g hg
  | spend number e fate entry held spent gauges entries =>
    intro p g hg
    exact h p g (gauges ▸ hg)

/-- Windows that start with this turn end within the range of dates. -/
def Fits (table : Table) (t : Turn owner) : Prop :=
  ∀ q ∈ table.quotas, Timestamp.inRange (t.now.nanos + q.window.nanos) = true

instance (table : Table) (t : Turn owner) : Decidable (Fits table t) :=
  inferInstanceAs (Decidable (∀ q ∈ table.quotas, _ = true))

theorem InRange.endsInRange {now : Timestamp} {d : Ledger} (h : d.InRange) (hd : d.Kept table owner)
    (hfits : ∀ q ∈ table.quotas, Timestamp.inRange (now.nanos + q.window.nanos) = true) :
    ∀ g ∈ d.limiter.gauges, g.EndsInRange now := by
  intro g hg
  obtain ⟨p, hp⟩ := List.mem_iff_getElem?.mp hg
  exact ⟨hfits _ (hd.quota_mem hp), h p g hp⟩

theorem inRange_of_ends {now : Timestamp} {d : Ledger} (hd : d.Kept table owner)
    (hends : ∀ g ∈ d.limiter.gauges, g.EndsInRange now) : d.InRange ∧
      ∀ q ∈ table.quotas, Timestamp.inRange (now.nanos + q.window.nanos) = true := by
  refine ⟨fun p g hg => (hends g (List.mem_of_getElem? hg)).running, fun q hq => ?_⟩
  rw [← hd.quotas] at hq
  obtain ⟨g, hg, rfl⟩ := List.mem_map.mp hq
  exact (hends g hg).fresh

/-- Within the range of dates a step has a result. -/
theorem step_isOk {d : Ledger} (hd : d.Kept table owner) (hr : table.Regular) (h : d.InRange)
    {t : Turn owner} (hfits : Fits table t) : ∃ d', d.step t = .ok d' := by
  have hends := h.endsInRange hd hfits
  obtain ⟨now, operation⟩ := t
  cases operation with
  | reserve tier =>
    have hrise : ∀ g ∈ d.limiter.gauges, (g.quota.charges.map Charge.position).Pairwise (· < ·) :=
      fun g hg => hr.charges_rise _ (hd.quotas ▸ List.mem_map_of_mem hg)
    obtain ⟨⟨limiter, result⟩, hok⟩ := Limiter.reserve_isOk tier hrise hends
    cases result <;> exact ⟨_, by simp only [step, hok]; rfl⟩
  | release number => exact ⟨_, rfl⟩
  | record number => exact ⟨_, rfl⟩
  | drop number => exact ⟨_, rfl⟩
  | releaseStray stray => exact ⟨_, rfl⟩
  | recordStray stray => exact ⟨_, rfl⟩
  | usage tier =>
    obtain ⟨⟨limiter, result⟩, hok⟩ := Limiter.usage_isOk tier hends
    exact ⟨_, by simp only [step, hok]; rfl⟩
  | usages =>
    obtain ⟨⟨limiter, result⟩, hok⟩ := Limiter.usages_isOk hends
    exact ⟨_, by simp only [step, hok]; rfl⟩

/-- Within the range of dates a run has a result. -/
theorem run_isOk (hr : table.Regular) {turns : List (Turn owner)}
    (hfits : ∀ t ∈ turns, Fits table t) {d : Ledger} (hd : d.Kept table owner) (h : d.InRange) :
    ∃ d', d.run turns = .ok d' := by
  induction turns generalizing d with
  | nil => exact ⟨d, rfl⟩
  | cons t rest ih =>
    have hfit := hfits t List.mem_cons_self
    obtain ⟨e, he⟩ := step_isOk hd hr h hfit
    obtain ⟨hkept, hmoves⟩ := step_moves hd hr he
    obtain ⟨d', hd'⟩ := ih (fun u hu => hfits u (List.mem_cons_of_mem _ hu)) hkept
      (h.of_moves hd hfit hmoves)
    exact ⟨d', by rw [run, List.foldlM_cons, he]; exact hd'⟩

theorem inRange_of_run (hr : table.Regular) {turns : List (Turn owner)}
    (hfits : ∀ t ∈ turns, Fits table t) {d d' : Ledger} (hd : d.Kept table owner) (h : d.InRange)
    (hrun : d.run turns = .ok d') : d'.Kept table owner ∧ d'.InRange :=
  run_keeps hr (fun t ht _ _ hkept hm hrange => hrange.of_moves hkept (hfits t ht) hm) hd h hrun

theorem InRange.opening (owner : Nat) (table : Table) : (opening owner table).InRange := by
  intro p g hg start hs
  simp only [Ledger.opening, Limiter.create, List.getElem?_map, Option.map_eq_some_iff] at hg
  obtain ⟨q, _, rfl⟩ := hg
  cases hs

end Ledger

end SpotGateway
