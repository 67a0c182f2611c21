import SpotGateway.Proofs.RateLimit.Standing
import SpotGateway.Proofs.RateLimit.Windows

/-!
# Looking on

Looking at a tier starts a window if none is running, and so it can move the windows of those who
reserve.  It goes unnoticed if the next call that looks at the tier comes at the same instant, or
not before the window is over that the look has started.  A monitor all of whose looks go unnoticed
changes nothing for anyone.

* `Watched`, `Turn.looksAt` — calls and a monitor's looks, and which tiers they look at;
* `Ledger.answers` — what becomes of the reservations of a run;
* `Ledger.Unnoticed`, `Ledger.unnoticed_iff`, `Ledger.Harmless` — looks that move no window;
* `Ledger.used_eq_debitedWithin` — what a tier counts is known from its window alone;
* `Ledger.Parallel` — a run with and without looks, with `Parallel.of_call` and `Parallel.of_look`;
* `Ledger.answers_of_harmless` — harmless looks change no answer;
* `Ledger.answers_earlyLook` — a look that is not harmless can.
-/

set_option autoImplicit false

namespace SpotGateway

/-! ## Calls and looks -/

/-- A call, or a monitor that looks at one tier or at all of them. -/
inductive Watched (owner : Nat) where
  | call (turn : Turn owner)
  | look (now : Timestamp) (tier : Option String)

namespace Watched

variable {owner : Nat}

def turn : Watched owner → Turn owner
  | .call t => t
  | .look now (some tier) => ⟨now, .usage tier⟩
  | .look now none => ⟨now, .usages⟩

def call? : Watched owner → Option (Turn owner)
  | .call t => some t
  | .look _ _ => none

theorem mem_map_turn {events : List (Watched owner)} {t : Turn owner}
    (h : t ∈ events.filterMap call?) : t ∈ events.map turn := by
  obtain ⟨e, he, hcall⟩ := List.mem_filterMap.mp h
  cases e with
  | call u =>
    cases hcall
    exact List.mem_map_of_mem he
  | look now tier => cases hcall

end Watched

/-- Whether the tier at a position is looked at. -/
def Turn.looksAt {owner : Nat} (table : Table) (p : Nat) (t : Turn owner) : Bool :=
  match t.operation with
  | .reserve tier =>
    match table.quota? tier with
    | some q => concernsAt q.charges p
    | none => false
  | .usage tier => (table.quotas[p]?).any fun q => q.id = tier
  | .usages => true
  | _ => false

namespace Gauge

variable {now later : Timestamp} {g : Gauge}

/-- A tier and its window but for what was counted. -/
def outline (g : Gauge) : Gauge := { g with used := 0, epoch := 0 }

theorem outline_roll (now : Timestamp) (g : Gauge) :
    (g.outline.roll now).outline = (g.roll now).outline := by
  unfold roll
  have hover : g.outline.isOver now = g.isOver now := rfl
  rw [hover]
  split <;> rfl

theorem outline_eq_iff {g' : Gauge} :
    g'.outline = g.outline ↔ g'.quota = g.quota ∧ g'.start = g.start := by
  simp [outline]

/-- What is left of a tier is its outline and its count. -/
theorem bare_eq {g' : Gauge} (houtline : g'.outline = g.outline) (hused : g'.used = g.used) :
    g'.bare = g.bare := by
  have hbare : ∀ g : Gauge, g.bare = { g.outline with used := g.used } := fun _ => rfl
  rw [hbare g, hbare g', houtline, hused]

theorem isOver_of_le (h : g.isOver now = true) (hle : now ≤ later) : g.isOver later = true := by
  cases hs : g.start with
  | none => simp [isOver, hs]
  | some start =>
    have hsince := since_of_isOver hs h
    have hle : now.nanos ≤ later.nanos := hle
    rw [Timestamp.since] at hsince
    rw [isOver, hs]
    exact decide_eq_true (by rw [Timestamp.since]; omega)

/-- A look at a window that is over moves the next one, unless that one starts with the look or
after the window that the look has started. -/
theorem roll_roll_outline_iff (hover : g.isOver now = true) (hle : now ≤ later) :
    ((g.roll now).roll later).outline = (g.roll later).outline ↔
      later = now ∨ now.nanos + g.quota.window.nanos ≤ later.nanos := by
  have hnow : g.roll now = { g with start := some now, used := 0, epoch := g.epoch + 1 } := by
    simp [roll, hover]
  have hlater : (g.roll later).outline = { g.outline with start := some later } := by
    simp [roll, isOver_of_le hover hle, outline]
  rw [hlater]
  rcases roll_eq later (g.roll now) with ⟨hruns, heq⟩ | ⟨hends, heq⟩
  · obtain ⟨start, hstart, hsince⟩ := start_of_not_isOver hruns
    rw [heq, hnow]
    rw [hnow] at hstart hsince
    cases hstart
    simp only [Timestamp.since] at hsince
    simp only [outline, Gauge.mk.injEq, Option.some.injEq, true_and, and_true]
    constructor
    · exact fun h => Or.inl h.symm
    · rintro (rfl | h)
      · rfl
      · omega
  · have hstart : (g.roll now).start = some now := by rw [hnow]
    have hsince := since_of_isOver hstart hends
    rw [Timestamp.since, quota_roll] at hsince
    rw [heq, hnow]
    exact iff_of_true rfl (Or.inr (by omega))

end Gauge

theorem Limiter.gauges_of_usage {l l' : Limiter} {tier : String} {now : Timestamp}
    {result : Except ThrottleError Usage} (h : l.usage tier now = .ok (l', result)) :
    l'.gauges = l.gauges.map fun g => if g.quota.id = tier then g.roll now else g := by
  unfold usage at h
  split at h
  · rename_i hg
    cases h
    rw [gauge?, List.find?_eq_none] at hg
    refine ((List.map_congr_left fun g hmem => ?_).trans (List.map_id _)).symm
    exact if_neg (by simpa using hg g hmem)
  · obtain ⟨u, _, h⟩ := bind_eq_ok.mp h
    rw [pure_eq_ok] at h
    cases h
    rfl

/-- An entry but for what it holds. -/
def Entry.bare (e : Entry) : Entry :=
  { e with epochs := [], reservation := ⟨0, e.tier, [], e.issuedAt⟩ }

namespace Ledger

variable {table : Table} {owner : Nat} {d d' e e' : Ledger} {t : Turn owner}

/-! ## What becomes of the reservations of a run -/

/-- What becomes of the reservation, if the turn is one. -/
def answer (d : Ledger) (t : Turn owner) : Checked (List (Option ThrottleError)) :=
  match t.operation with
  | .reserve tier => do return [← d.limiter.verdict tier t.now]
  | _ => .ok []

/-- What becomes of the reservations of a run, one after another. -/
def answers (d : Ledger) : List (Turn owner) → Checked (List (Option ThrottleError))
  | [] => .ok []
  | t :: rest => do
    let own ← d.answer t
    let d' ← d.step t
    return own ++ (← d'.answers rest)

theorem answer_isOk (h : d.step t = .ok d') : ∃ own, d.answer t = .ok own := by
  obtain ⟨now, operation⟩ := t
  cases operation with
  | reserve tier =>
    obtain ⟨⟨limiter, result⟩, hreserve, _⟩ := bind_eq_ok.mp h
    exact ⟨_, by simp only [answer, Limiter.verdict, hreserve]; rfl⟩
  | _ => exact ⟨[], rfl⟩

theorem answers_cons {rest : List (Turn owner)} {own following : List (Option ThrottleError)}
    (hown : d.answer t = .ok own) (hstep : d.step t = .ok d')
    (hrest : d'.answers rest = .ok following) : d.answers (t :: rest) = .ok (own ++ following) := by
  unfold answers
  exact bind_eq_ok.mpr ⟨own, hown, bind_eq_ok.mpr ⟨d', hstep, bind_eq_ok.mpr
    ⟨following, hrest, rfl⟩⟩⟩

/-! ## Looks that go unnoticed -/

/-- Of each tier whose window the look starts, the next call comes at the start of that window, or
not before its end. -/
def Unnoticed (table : Table) (d : Ledger) (look : Turn owner) (calls : List (Turn owner)) : Prop :=
  ∀ tier ∈ d.limiter.gauges.zipIdx, look.looksAt table tier.2 = true →
    tier.1.isOver look.now = true → ∀ t ∈ calls.find? fun t => t.looksAt table tier.2,
      t.now = look.now ∨ look.now.nanos + tier.1.quota.window.nanos ≤ t.now.nanos

instance (table : Table) (d : Ledger) (look : Turn owner) (calls : List (Turn owner)) :
    Decidable (d.Unnoticed table look calls) :=
  inferInstanceAs (Decidable (∀ tier ∈ d.limiter.gauges.zipIdx, _))

/-- All looks go unnoticed by the calls after them. -/
def Harmless (table : Table) (d : Ledger) : List (Watched owner) → Prop
  | [] => True
  | event :: rest =>
    (event.call? = none → d.Unnoticed table event.turn (rest.filterMap Watched.call?)) ∧
      ∀ d', d.step event.turn = .ok d' → d'.Harmless table rest

instance decidableHarmless (table : Table) :
    ∀ (d : Ledger) (events : List (Watched owner)), Decidable (d.Harmless table events)
  | _, [] => isTrue trivial
  | d, event :: rest =>
    have : ∀ d', Decidable (Harmless table d' rest) := fun d' => decidableHarmless table d' rest
    have : Decidable (∀ d', d.step event.turn = .ok d' → d'.Harmless table rest) :=
      match d.step event.turn with
      | .ok d' => decidable_of_iff (d'.Harmless table rest) (by simp)
      | .error _ => isTrue (by simp)
    inferInstanceAs (Decidable (_ ∧ _))

/-! ## Which windows run after a step -/

/-- Looking leaves a window of which the outline alone decides. -/
theorem map_outline_roll {a b : Option Gauge} (h : a.map Gauge.outline = b.map Gauge.outline)
    (now : Timestamp) :
    a.map (fun g => (g.roll now).outline) = b.map fun g => (g.roll now).outline := by
  have hroll : ∀ a : Option Gauge, a.map (fun g => (g.roll now).outline) =
      (a.map Gauge.outline).map fun g => (g.roll now).outline := by
    intro a
    rw [Option.map_map]
    simp only [Function.comp_def, Gauge.outline_roll]
  rw [hroll a, hroll b, h]

/-- The outline of the tier at a position. -/
def outlineAt (p : Nat) (l : Limiter) : Option Gauge := l.gauges[p]?.map Gauge.outline

theorem outlineAt_release (p : Nat) (l : Limiter) (r : Reservation) :
    outlineAt p (l.release r) = outlineAt p l := by
  unfold outlineAt Limiter.release
  split
  · rw [getElem?_foldl_modify Holding.position fun h => Gauge.credit h.units h.epoch,
      Option.map_map]
    simp only [Gauge.foldl_credit, Function.comp_def]
    rfl
  · rfl

theorem outlineAt_record (p : Nat) (l : Limiter) (r : Reservation) :
    outlineAt p (l.record r) = outlineAt p l := by
  rw [outlineAt, Limiter.gauges_record, outlineAt]

theorem outlineAt_of_reserve (hd : d.Kept table owner) (hr : table.Regular) {now : Timestamp}
    {tier : String} (h : d.step (⟨now, .reserve tier⟩ : Turn owner) = .ok d') (p : Nat) :
    outlineAt p d'.limiter = d.limiter.gauges[p]?.map fun g =>
      (if Turn.looksAt table p (⟨now, .reserve tier⟩ : Turn owner) then g.roll now
        else g).outline := by
  obtain ⟨result, hreserve⟩ := reserve_of_step h
  have hquota := d.limiter.quota?_table tier
  rw [hd.table_eq] at hquota
  rcases Limiter.reserve_cases hreserve with ⟨hg, hl, _⟩ | ⟨g, hg, hcases⟩
  · rw [hg] at hquota
    simp [outlineAt, Turn.looksAt, hquota, hl]
  rw [hg] at hquota
  have hlooks : Turn.looksAt table p (⟨now, .reserve tier⟩ : Turn owner) =
      concernsAt g.quota.charges p := by
    simp [Turn.looksAt, hquota]
  have hrolled : (Limiter.rollAll now g.quota.charges d.limiter.gauges)[p]? =
      if concernsAt g.quota.charges p then d.limiter.gauges[p]?.map (Gauge.roll now)
      else d.limiter.gauges[p]? :=
    Limiter.getElem?_rollAll
      (Limiter.charges_rise (hd.regular hr) g (List.mem_of_find?_eq_some hg)) _ p
  rw [hlooks]
  rcases hcases with ⟨_, _, hl, _⟩ | ⟨_, hl, _⟩
  · simp only [outlineAt, hl, hrolled]
    split <;> simp [Function.comp_def]
  · simp only [outlineAt, hl, Limiter.getElem?_chargeAll, hrolled]
    split <;> simp [Function.comp_def, Gauge.outline, Gauge.charge]

theorem outlineAt_of_usage (hd : d.Kept table owner) {now : Timestamp} {tier : String}
    (h : d.step (⟨now, .usage tier⟩ : Turn owner) = .ok d') (p : Nat) :
    outlineAt p d'.limiter = d.limiter.gauges[p]?.map fun g =>
      (if Turn.looksAt table p (⟨now, .usage tier⟩ : Turn owner) then g.roll now
        else g).outline := by
  obtain ⟨⟨limiter, _⟩, husage, h⟩ := bind_eq_ok.mp h
  cases h
  rw [outlineAt, Limiter.gauges_of_usage husage, List.getElem?_map]
  have hquota := hd.getElem?_quotas p
  cases hg : d.limiter.gauges[p]? with
  | none => rfl
  | some g =>
    rw [hg, Option.map_some] at hquota
    simp [Turn.looksAt, hquota]

/-- **A step starts windows where it looks**, and nowhere else. -/
theorem outlineAt_of_step (hd : d.Kept table owner) (hr : table.Regular) (h : d.step t = .ok d')
    (p : Nat) : outlineAt p d'.limiter = d.limiter.gauges[p]?.map fun g =>
      (if t.looksAt table p then g.roll t.now else g).outline := by
  obtain ⟨now, operation⟩ := t
  cases operation with
  | reserve tier =>
    exact outlineAt_of_reserve hd hr h p
  | release number =>
    cases h
    exact limiter_handBack (outlineAt p) _ _ _ (outlineAt_release p)
  | record number =>
    cases h
    exact limiter_handBack (outlineAt p) _ _ _ (outlineAt_record p)
  | drop number =>
    cases h
    exact limiter_handBack (outlineAt p) _ _ _ fun _ _ => rfl
  | releaseStray stray =>
    cases h
    exact outlineAt_release p _ _
  | recordStray stray =>
    cases h
    exact outlineAt_record p _ _
  | usage tier =>
    exact outlineAt_of_usage hd h p
  | usages =>
    obtain ⟨⟨limiter, _⟩, husages, h⟩ := bind_eq_ok.mp h
    cases h
    obtain ⟨rfl, _⟩ := Limiter.usages_eq_ok_iff.mp husages
    simp [outlineAt, Limiter.lookedAt, Turn.looksAt, Function.comp_def]

/-- **A look goes unnoticed exactly if the next call at each of its tiers finds the window that it
would have found.** -/
theorem unnoticed_iff {look : Turn owner} {calls : List (Turn owner)}
    (hlater : ∀ t ∈ calls, look.now ≤ t.now) : d.Unnoticed table look calls ↔
      ∀ (p : Nat) (g : Gauge), d.limiter.gauges[p]? = some g → look.looksAt table p = true →
        ∀ t ∈ calls.find? fun t => t.looksAt table p,
          ((g.roll look.now).roll t.now).outline = (g.roll t.now).outline := by
  have hmem : ∀ (p : Nat) (g : Gauge),
      (g, p) ∈ d.limiter.gauges.zipIdx ↔ d.limiter.gauges[p]? = some g := by
    intro p g
    rw [List.mem_zipIdx_iff_getElem?]
  constructor
  · intro h p g hg hlooks t ht
    rcases Gauge.roll_eq look.now g with ⟨_, heq⟩ | ⟨hover, _⟩
    · rw [heq]
    · exact (Gauge.roll_roll_outline_iff hover (hlater t (List.mem_of_find?_eq_some ht))).mpr
        (h (g, p) ((hmem p g).mpr hg) hlooks hover t ht)
  · rintro h ⟨g, p⟩ htier hlooks hover t ht
    exact (Gauge.roll_roll_outline_iff hover (hlater t (List.mem_of_find?_eq_some ht))).mp
      (h p g ((hmem p g).mp htier) hlooks t ht)

/-! ## What is counted in a window -/

/-- What was taken within a span of time does not depend on the epochs it was taken from. -/
theorem debitedWithin_congr (h : d'.entries.map Entry.bare = d.entries.map Entry.bare) (p : Nat)
    (start stop : Int) :
    d'.debitedWithin table p start stop = d.debitedWithin table p start stop := by
  have hbare : ∀ d : Ledger, d.debitedWithin table p start stop =
      ((d.entries.map Entry.bare).map fun e => e.weightWithin table p start stop).sum := by
    intro d
    rw [List.map_map]
    rfl
  rw [hbare d, hbare d', h]

/-- **A tier counts what was taken since its window started.** -/
theorem used_eq_debitedWithin {upcoming : List (Turn owner)} {p : Nat} (hb : d.Balanced table)
    (hs : d.Spaced table p upcoming) {g : Gauge} (hg : d.limiter.gauges[p]? = some g)
    {start : Timestamp} (hstart : g.start = some start) :
    g.used = d.debitedWithin table p start.nanos (start.nanos + g.quota.window.nanos) := by
  rw [hb.used p g hg, debited, debitedWithin]
  congr 1
  refine List.map_congr_left fun e he => ?_
  unfold Entry.weight Entry.weightWithin
  by_cases hpos : 0 < table.unitsAt e.tier p
  · obtain ⟨epoch, start', hepoch, hplaces⟩ := hs.placed e he hpos g hg
    rw [hplaces.start_eq] at hstart
    cases hstart
    -- Issued in this epoch is issued since its window started.
    have hin : e.epochs[p]? = some g.epoch ↔ start.nanos ≤ e.issuedAt.nanos ∧
        e.issuedAt.nanos < start.nanos + g.quota.window.nanos := by
      rw [hepoch, Option.some.injEq]
      constructor
      · exact hplaces.within
      · intro hin
        by_contra hne
        have := hplaces.before (Nat.lt_of_le_of_ne hplaces.epoch_le hne)
        omega
    simp only [hin]
  · simp [Nat.eq_zero_of_not_pos hpos]

/-! ## Runs with and without looks -/

/-- What a ledger is known to keep, before the turns that are still to come. -/
structure Sound (table : Table) (owner : Nat) (upcoming : List (Turn owner)) (d : Ledger) :
    Prop where
  kept : d.Kept table owner
  balanced : d.Balanced table
  spaced : ∀ p, d.Spaced table p upcoming
  inRange : d.InRange

theorem Sound.opening (table : Table) (owner : Nat) (turns : List (Turn owner)) :
    (opening owner table).Sound table owner turns :=
  ⟨.opening table owner, .opening table owner, fun p => .opening table p turns,
    .opening owner table⟩

theorem Sound.of_step {rest : List (Turn owner)} (h : d.Sound table owner (t :: rest))
    (hr : table.Regular) (hclock : ∀ u ∈ rest, t.now ≤ u.now) (hfits : Fits table t)
    (hstep : d.step t = .ok d') : d'.Sound table owner rest := by
  obtain ⟨hkept, hmoves⟩ := step_moves h.kept hr hstep
  exact ⟨hkept, h.balanced.of_moves hmoves, fun p => (h.spaced p).of_moves h.kept hclock hmoves,
    h.inRange.of_moves h.kept hfits hmoves⟩

/-- What a tier counts once it was looked at. -/
theorem Sound.used_roll {rest : List (Turn owner)} (h : d.Sound table owner (t :: rest))
    (hr : table.Regular) (hclock : ∀ u ∈ rest, t.now ≤ u.now) {p : Nat} {g : Gauge}
    (hg : d.limiter.gauges[p]? = some g) : ∃ start, (g.roll t.now).start = some start ∧
      (g.roll t.now).used = d.debitedWithin table p start.nanos
        (start.nanos + (g.roll t.now).quota.window.nanos) := by
  have hrolled := d.limiter.rolled_lookedAt t.now
  obtain ⟨start, hstart, _⟩ :=
    Gauge.start_roll t.now (h.kept.window_pos hr hg)
  refine ⟨start, hstart, ?_⟩
  exact used_eq_debitedWithin (d := ⟨d.limiter.lookedAt t.now, d.entries⟩)
    (h.balanced.of_rolled hrolled rfl) ((h.spaced p).of_rolled hclock hrolled rfl)
    (by rw [Limiter.getElem?_lookedAt, hg]; rfl) hstart

/-- Two ledgers with the same entries, in which the calls still to come find the same windows. -/
structure Parallel (table : Table) (calls : List (Turn owner)) (d d' : Ledger) : Prop where
  entries : d'.entries.map Entry.bare = d.entries.map Entry.bare
  windows : ∀ p, ∀ t ∈ calls.find? fun t => t.looksAt table p,
    d'.limiter.gauges[p]?.map (fun g => (g.roll t.now).outline) =
      d.limiter.gauges[p]?.map fun g => (g.roll t.now).outline

/-- A call finds its tiers as they would have been without looks. -/
theorem Parallel.bare_eq {rest calls : List (Turn owner)} (h : Parallel table (t :: calls) d d')
    (hd : d.Sound table owner (t :: calls)) (hd' : d'.Sound table owner (t :: rest))
    (hr : table.Regular) (hclock : ∀ u ∈ calls, t.now ≤ u.now) (hclock' : ∀ u ∈ rest, t.now ≤ u.now)
    {p : Nat} (hlooks : t.looksAt table p = true) :
    (d'.limiter.lookedAt t.now).gauges[p]?.map Gauge.bare =
      (d.limiter.lookedAt t.now).gauges[p]?.map Gauge.bare := by
  have hwindows := h.windows p t (by simp [hlooks])
  rw [Limiter.getElem?_lookedAt, Limiter.getElem?_lookedAt, Option.map_map,
    Option.map_map]
  cases hg : d.limiter.gauges[p]? with
  | none =>
    rw [hg, Option.map_none, Option.map_eq_none_iff] at hwindows
    rw [hwindows]
  | some g =>
    rw [hg, Option.map_some, Option.map_eq_some_iff] at hwindows
    obtain ⟨g', hg', houtline⟩ := hwindows
    obtain ⟨start, hstart, hused⟩ := hd.used_roll hr hclock hg
    obtain ⟨start', hstart', hused'⟩ := hd'.used_roll hr hclock' hg'
    obtain ⟨hquotas, hstarts⟩ := Gauge.outline_eq_iff.mp houtline
    rw [hstarts, hstart] at hstart'
    cases hstart'
    rw [debitedWithin_congr h.entries, hquotas, ← hused] at hused'
    rw [hg', Option.map_some, Option.map_some, Function.comp_apply, Function.comp_apply,
      Gauge.bare_eq houtline hused']

/-- **A call is answered as it would have been without looks.** -/
theorem Parallel.answer_eq {rest calls : List (Turn owner)} (h : Parallel table (t :: calls) d d')
    (hd : d.Sound table owner (t :: calls)) (hd' : d'.Sound table owner (t :: rest))
    (hr : table.Regular) (hclock : ∀ u ∈ calls, t.now ≤ u.now)
    (hclock' : ∀ u ∈ rest, t.now ≤ u.now) : d'.answer t = d.answer t := by
  unfold answer
  split
  · rename_i tier hoperation
    rw [Limiter.verdict_congr (hd.kept.regular hr) (hd'.kept.table_eq.trans hd.kept.table_eq.symm)]
    rw [hd.kept.table_eq]
    intro q hq c hc
    refine h.bare_eq hd hd' hr hclock hclock' ?_
    simp only [Turn.looksAt, hoperation, hq]
    exact List.any_eq_true.mpr ⟨c, hc, by simp⟩
  · rfl

theorem bare_handBack (h : d'.entries.map Entry.bare = d.entries.map Entry.bare) (number : Nat)
    (fate : Fate) (take : Limiter → Reservation → Limiter) :
    (d'.handBack number fate take).entries.map Entry.bare =
      (d.handBack number fate take).entries.map Entry.bare := by
  have hentry : d'.entries[number]?.map Entry.bare = d.entries[number]?.map Entry.bare := by
    rw [← List.getElem?_map, h, List.getElem?_map]
  unfold handBack
  cases he : d.entries[number]? with
  | none =>
    rw [he, Option.map_none, Option.map_eq_none_iff] at hentry
    rw [hentry]
    exact h
  | some e =>
    rw [he, Option.map_some, Option.map_eq_some_iff] at hentry
    obtain ⟨e', he', hbare⟩ := hentry
    have hfate : e'.fate = e.fate := (congrArg Entry.fate hbare :)
    have hset : Entry.bare { e' with fate } = Entry.bare { e with fate } :=
      congrArg (fun b : Entry => { b with fate }) hbare
    rw [he']
    simp only [hfate]
    split
    · rw [List.map_set, List.map_set, h, hset]
    · exact h

theorem entries_of_usage {now : Timestamp} {tier : String}
    (h : d.step (⟨now, .usage tier⟩ : Turn owner) = .ok e) : e.entries = d.entries := by
  obtain ⟨_, _, h⟩ := bind_eq_ok.mp h
  cases h
  rfl

theorem entries_of_usages {now : Timestamp}
    (h : d.step (⟨now, .usages⟩ : Turn owner) = .ok e) : e.entries = d.entries := by
  obtain ⟨_, _, h⟩ := bind_eq_ok.mp h
  cases h
  rfl

/-- Calls that are answered alike are written down alike. -/
theorem bare_of_step (h : d'.entries.map Entry.bare = d.entries.map Entry.bare)
    (hanswer : d'.answer t = d.answer t) (hstep : d.step t = .ok e) (hstep' : d'.step t = .ok e') :
    e'.entries.map Entry.bare = e.entries.map Entry.bare := by
  obtain ⟨now, operation⟩ := t
  cases operation with
  | reserve tier =>
    obtain ⟨⟨l, result⟩, hreserve, hstep⟩ := bind_eq_ok.mp hstep
    obtain ⟨⟨l', result'⟩, hreserve', hstep'⟩ := bind_eq_ok.mp hstep'
    simp only [answer, Limiter.verdict, hreserve, hreserve'] at hanswer
    cases result with
    | ok r =>
      cases result' with
      | ok r' =>
        cases hstep
        cases hstep'
        simp [h, Entry.bare]
      | error refusal => cases hanswer
    | error refusal =>
      cases result' with
      | ok r' => cases hanswer
      | error refusal' =>
        cases hstep
        cases hstep'
        exact h
  | release number =>
    cases hstep
    cases hstep'
    exact bare_handBack h number _ _
  | record number =>
    cases hstep
    cases hstep'
    exact bare_handBack h number _ _
  | drop number =>
    cases hstep
    cases hstep'
    exact bare_handBack h number _ _
  | releaseStray stray =>
    cases hstep
    cases hstep'
    exact h
  | recordStray stray =>
    cases hstep
    cases hstep'
    exact h
  | usage tier => rwa [entries_of_usage hstep, entries_of_usage hstep']
  | usages => rwa [entries_of_usages hstep, entries_of_usages hstep']

/-- The same call, with and without looks before it. -/
theorem Parallel.of_call {calls : List (Turn owner)} (h : Parallel table (t :: calls) d d')
    (hd : d.Kept table owner) (hd' : d'.Kept table owner) (hr : table.Regular)
    (hanswer : d'.answer t = d.answer t) (hstep : d.step t = .ok e) (hstep' : d'.step t = .ok e') :
    Parallel table calls e e' := by
  refine ⟨bare_of_step h.entries hanswer hstep hstep', fun p u hu => ?_⟩
  have houtline := outlineAt_of_step hd hr hstep p
  have houtline' := outlineAt_of_step hd' hr hstep' p
  cases hlooks : t.looksAt table p with
  | true =>
    -- Both look at the tier, and then the same window runs.
    have hwindows := h.windows p t (by simp [hlooks])
    simp only [hlooks, if_true] at houtline houtline'
    exact map_outline_roll (houtline'.trans (hwindows.trans houtline.symm)) u.now
  | false =>
    have hwindows := h.windows p u (by simpa [hlooks] using hu)
    simp only [hlooks, Bool.false_eq_true, if_false] at houtline houtline'
    exact (map_outline_roll houtline' u.now).trans
      (hwindows.trans (map_outline_roll houtline u.now).symm)

/-- One more look, which goes unnoticed. -/
theorem Parallel.of_look {calls : List (Turn owner)} (h : Parallel table calls d d')
    (hd' : d'.Kept table owner) (hr : table.Regular) {look : Watched owner}
    (hlook : look.call? = none) (hlater : ∀ t ∈ calls, look.turn.now ≤ t.now)
    (hunnoticed : d'.Unnoticed table look.turn calls) (hstep : d'.step look.turn = .ok e') :
    Parallel table calls d e' := by
  have hentries : e'.entries = d'.entries := by
    cases look with
    | call t => cases hlook
    | look now tier =>
      cases tier with
      | none => exact entries_of_usages hstep
      | some tier => exact entries_of_usage hstep
  refine ⟨hentries ▸ h.entries, fun p t ht => ?_⟩
  rw [← h.windows p t ht]
  have houtline := outlineAt_of_step hd' hr hstep p
  cases hg : d'.limiter.gauges[p]? with
  | none =>
    rw [hg, outlineAt, Option.map_none, Option.map_eq_none_iff] at houtline
    rw [houtline]
  | some g =>
    rw [hg] at houtline
    rw [map_outline_roll (b := some _) houtline, Option.map_some, Option.map_some]
    cases hlooks : look.turn.looksAt table p with
    | true =>
      rw [if_pos rfl, (unnoticed_iff hlater).mp hunnoticed p g hg hlooks t ht]
    | false => rfl

/-- Whatever events are still to come, looks that are harmless change no answer. -/
theorem Parallel.answers_eq (hr : table.Regular) {events : List (Watched owner)}
    (hclock : (events.map Watched.turn).Pairwise fun t u => t.now ≤ u.now)
    (hfits : ∀ event ∈ events, Fits table event.turn)
    (hd : d.Sound table owner (events.filterMap Watched.call?))
    (hd' : d'.Sound table owner (events.map Watched.turn))
    (h : Parallel table (events.filterMap Watched.call?) d d')
    (hharmless : d'.Harmless table events) :
    ∃ answers, d.answers (events.filterMap Watched.call?) = .ok answers ∧
      d'.answers (events.map Watched.turn) = .ok answers := by
  induction events generalizing d d' with
  | nil => exact ⟨[], rfl, rfl⟩
  | cons event rest ih =>
    rw [List.map_cons, List.pairwise_cons] at hclock
    rw [List.map_cons] at hd'
    obtain ⟨hunnoticed, hrest⟩ := hharmless
    have hfit := hfits event List.mem_cons_self
    obtain ⟨e', hstep'⟩ := step_isOk hd'.kept hr hd'.inRange hfit
    have he' := hd'.of_step hr hclock.1 hfit hstep'
    have hlater : ∀ t ∈ rest.filterMap Watched.call?, event.turn.now ≤ t.now :=
      fun t ht => hclock.1 t (Watched.mem_map_turn ht)
    have hfits' : ∀ event ∈ rest, Fits table event.turn :=
      fun m hm => hfits m (List.mem_cons_of_mem _ hm)
    cases event with
    | call t =>
      have hcalls : (Watched.call t :: rest).filterMap Watched.call? =
          t :: rest.filterMap Watched.call? := rfl
      rw [hcalls] at h hd ⊢
      obtain ⟨e, hstep⟩ := step_isOk hd.kept hr hd.inRange hfit
      have hanswer : d'.answer t = d.answer t := h.answer_eq hd hd' hr hlater hclock.1
      obtain ⟨own, hown⟩ := answer_isOk hstep
      obtain ⟨following, hfollowing, hfollowing'⟩ := ih hclock.2 hfits'
        (hd.of_step hr hlater hfit hstep) he'
        (h.of_call hd.kept hd'.kept hr hanswer hstep hstep') (hrest e' hstep')
      exact ⟨own ++ following, answers_cons hown hstep hfollowing,
        answers_cons (hanswer.trans hown) hstep' hfollowing'⟩
    | look now tier =>
      have hown : d'.answer (Watched.look now tier : Watched owner).turn = .ok [] := by
        cases tier <;> rfl
      obtain ⟨following, hfollowing, hfollowing'⟩ := ih hclock.2 hfits' hd he'
        (h.of_look hd'.kept hr rfl hlater (hunnoticed rfl) hstep') (hrest e' hstep')
      exact ⟨following, hfollowing, answers_cons hown hstep' hfollowing'⟩

/-- **Harmless looks change no answer.**  Over every accepted table and every run by a clock that
never goes back, each reservation is admitted, or refused for the same reason until the same
instant, as it would have been if nobody had looked: provided that whenever a look starts a window,
the next call that looks at the tier comes at that instant, or not before that window is over. -/
theorem answers_of_harmless {tiers : List Tier} (hb : Table.build tiers = .ok table)
    {events : List (Watched owner)}
    (hclock : (events.map Watched.turn).Pairwise fun t u => t.now ≤ u.now)
    (hfits : ∀ event ∈ events, Fits table event.turn)
    (hharmless : (opening owner table).Harmless table events) :
    ∃ answers, (opening owner table).answers (events.filterMap Watched.call?) = .ok answers ∧
      (opening owner table).answers (events.map Watched.turn) = .ok answers :=
  Parallel.answers_eq (Table.regular_of_build hb) hclock hfits (.opening table owner _)
    (.opening table owner _) ⟨rfl, fun _ _ _ => rfl⟩ hharmless

/-- One look while a window runs, and one that starts a window which is over in time. -/
def timelyLooks : List (Watched 1) :=
  [.call ⟨⟨0, false⟩, .reserve "orders"⟩, .look ⟨300000000, false⟩ none,
    .call ⟨⟨500000000, false⟩, .reserve "orders"⟩, .call ⟨⟨900000000, false⟩, .reserve "orders"⟩,
    .look ⟨1500000000, false⟩ (some "orders"), .call ⟨⟨2500000000, false⟩, .reserve "orders"⟩]

theorem answers_timelyLooks : Table.build linkedTiers = .ok linkedTable ∧
    (timelyLooks.map Watched.turn).Pairwise (fun t u => t.now ≤ u.now) ∧
    (∀ event ∈ timelyLooks, Fits linkedTable event.turn) ∧
    (opening 1 linkedTable).Harmless linkedTable timelyLooks ∧
    ∃ answers, (opening 1 linkedTable).answers (timelyLooks.filterMap Watched.call?) = .ok answers ∧
      (opening 1 linkedTable).answers (timelyLooks.map Watched.turn) = .ok answers ∧
      answers.map Option.isSome = [false, false, true, false] := by
  have hb : Table.build linkedTiers = .ok linkedTable := rfl
  have hclock : (timelyLooks.map Watched.turn).Pairwise fun t u => t.now ≤ u.now := by decide
  have hfits : ∀ event ∈ timelyLooks, Fits linkedTable event.turn := by decide
  have hharmless : (opening 1 linkedTable).Harmless linkedTable timelyLooks := by decide
  obtain ⟨answers, hplain, hwatched⟩ := answers_of_harmless hb hclock hfits hharmless
  refine ⟨hb, hclock, hfits, hharmless, answers, hplain, hwatched, ?_⟩
  cases hplain
  rfl

/-- A look before the first reservation, whose window is over before that of the reservations would
have been. -/
def earlyLook : List (Watched 1) :=
  [.look ⟨0, false⟩ (some "orders"), .call ⟨⟨500000000, false⟩, .reserve "orders"⟩,
    .call ⟨⟨500000000, false⟩, .reserve "orders"⟩, .call ⟨⟨1000000000, false⟩, .reserve "orders"⟩]

/-- **A look can let in what would have been refused.** -/
theorem answers_earlyLook : Table.build linkedTiers = .ok linkedTable ∧
    (earlyLook.map Watched.turn).Pairwise (fun t u => t.now ≤ u.now) ∧
    (∀ event ∈ earlyLook, Fits linkedTable event.turn) ∧
    (opening 1 linkedTable).answers (earlyLook.filterMap Watched.call?) = .ok [none, none,
      some (.exceeded ⟨"orders", 1, 0, 2, ⟨500000000⟩, ⟨1500000000, false⟩⟩)] ∧
    (opening 1 linkedTable).answers (earlyLook.map Watched.turn) = .ok [none, none, none] :=
  ⟨rfl, by decide, by decide, rfl, rfl⟩

end Ledger

end SpotGateway
