import SpotGateway.RateLimit.Table
import SpotGateway.Time.Timestamp

/-!
# Rate limiting

A limiter counts, for each tier of a table, the units taken in the tier's current window.  Windows
start with their first use and follow one after another only as they are used.  A reservation takes
its units from all tiers it concerns or from none; it is handed back either as spent or as never
used, in which case units of windows that still run are returned.

* `Gauge` — a tier and its current window, with `Gauge.roll`;
* `Limiter`, `Reservation`, `Usage`, `Stats`;
* `Limiter.reserve` — admission, or the tier that stands in the way longest (`Denial`);
* `Limiter.release`, `Limiter.record` — handing back;
* `Limiter.spend` — reserving and handing back as spent;
* `Limiter.usage`, `Limiter.usages` — looking.
-/

set_option autoImplicit false

namespace SpotGateway

/-- A tier and its current window. -/
structure Gauge where
  quota : Quota
  /-- Start of the window; none before the first use. -/
  start : Option Timestamp
  /-- Units taken in the window. -/
  used : Nat
  /-- How many windows there have been. -/
  epoch : Nat
  deriving DecidableEq, Repr

/-- Why a reservation was refused: the tier that is full longest. -/
structure Denial where
  tier : String
  requested : Nat
  remaining : Nat
  capacity : Nat
  retryAfter : Span
  /-- When the tier's window is over. -/
  retryAt : Timestamp
  deriving DecidableEq, Repr

/-- Why the limiter refuses. -/
inductive ThrottleError where
  | exceeded (denial : Denial)
  | unknownTier (id : String)
  deriving DecidableEq, Repr

def ThrottleError.message : ThrottleError → String
  | .exceeded d =>
    s!"Rate limit exceeded on {d.tier}: requested {d.requested}, remaining " ++
      s!"{d.remaining}/{d.capacity}, retry after {d.retryAfter}"
  | .unknownTier id => s!"Unknown rate limit tier: {id}"

/-- Units that a reservation holds of one tier. -/
structure Holding where
  position : Nat
  units : Nat
  /-- The window they were taken from. -/
  epoch : Nat
  deriving DecidableEq, Repr

/-- Permission for one call, to be handed back to the limiter it came from. -/
structure Reservation where
  limiter : Nat
  tier : String
  holdings : List Holding
  issuedAt : Timestamp
  deriving DecidableEq, Repr

/-- How a tier stands. -/
structure Usage where
  tier : String
  used : Nat
  capacity : Nat
  remaining : Nat
  /-- Time left of the window. -/
  resetsIn : Span
  deriving DecidableEq, Repr

/-- Reservations so far, by what became of them. -/
structure Stats where
  admitted : Nat
  rejected : Nat
  released : Nat
  recorded : Nat
  deriving DecidableEq, Repr

/-- The counts of a table of tiers. -/
structure Limiter where
  /-- Tells limiters apart. -/
  id : Nat
  /-- In the order of the table. -/
  gauges : List Gauge
  stats : Stats
  deriving DecidableEq, Repr

namespace Gauge

/-- A tier that has not been used. -/
def fresh (q : Quota) : Gauge := ⟨q, none, 0, 0⟩

/-- No window is running. -/
def isOver (g : Gauge) (now : Timestamp) : Bool :=
  match g.start with
  | none => true
  | some start => (g.quota.window.nanos : Int) ≤ now.since start

/-- The tier at `now`: with a new window, if none is running. -/
def roll (now : Timestamp) (g : Gauge) : Gauge :=
  if g.isOver now then { g with start := some now, used := 0, epoch := g.epoch + 1 } else g

def remaining (g : Gauge) : Nat := g.quota.capacity - g.used

/-- End of the window. -/
def resetsAt (g : Gauge) (now : Timestamp) : Checked Timestamp :=
  (g.start.getD now).plus g.quota.window.nanos

/-- The refusal of `units` units. -/
def refuse (g : Gauge) (now : Timestamp) (units : Nat) : Checked Denial := do
  let retryAt ← g.resetsAt now
  return ⟨g.quota.id, units, g.remaining, g.quota.capacity, .ofDifference (retryAt.since now),
    retryAt⟩

def usage (g : Gauge) (now : Timestamp) : Checked Usage := do
  let resetsAt ← g.resetsAt now
  return ⟨g.quota.id, g.used, g.quota.capacity, g.remaining, .ofDifference (resetsAt.since now)⟩

/-- The tier after a charge. -/
def charge (units : Nat) (g : Gauge) : Gauge := { g with used := g.used + units }

/-- The tier after units of one of its windows came back; they count only while it runs. -/
def credit (units epoch : Nat) (g : Gauge) : Gauge :=
  if g.epoch = epoch then { g with used := g.used - units } else g

@[simp] theorem quota_roll (now : Timestamp) (g : Gauge) : (g.roll now).quota = g.quota := by
  unfold roll
  split <;> rfl

@[simp] theorem quota_charge (units : Nat) (g : Gauge) : (g.charge units).quota = g.quota := rfl

@[simp] theorem quota_credit (units epoch : Nat) (g : Gauge) :
    (g.credit units epoch).quota = g.quota := by
  unfold credit
  split <;> rfl

theorem roll_of_not_isOver {now : Timestamp} {g : Gauge} (h : g.isOver now = false) :
    g.roll now = g := by
  simp [roll, h]

theorem used_charge (units : Nat) (g : Gauge) : (g.charge units).used = g.used + units := rfl

end Gauge

namespace Limiter

/-- A limiter that nothing has been reserved from. -/
def create (id : Nat) (table : Table) : Limiter :=
  ⟨id, table.quotas.map Gauge.fresh, ⟨0, 0, 0, 0⟩⟩

def gauge? (l : Limiter) (id : String) : Option Gauge := l.gauges.find? fun g => g.quota.id = id

def ids (l : Limiter) : List String := l.gauges.map fun g => g.quota.id

/-- The gauges at `now`, where charges are about to be made. -/
def rollAll (now : Timestamp) (charges : List Charge) (gauges : List Gauge) : List Gauge :=
  charges.foldl (fun gs c => gs.modify c.position (Gauge.roll now)) gauges

/-- The refusal with the later retry time, the earlier refusal if they are equal. -/
def laterDenial (worst : Option Denial) (d : Denial) : Denial :=
  match worst with
  | some w => if w.retryAt < d.retryAt then d else w
  | none => d

/-- The refusal that stands longest, if the tiers cannot take all charges. -/
def denial? (now : Timestamp) (charges : List Charge) (gauges : List Gauge) :
    Checked (Option Denial) :=
  charges.foldlM (fun worst c =>
    match gauges[c.position]? with
    | some g =>
      if g.remaining < c.units then do
        return some (laterDenial worst (← g.refuse now c.units))
      else .ok worst
    | none => .ok worst) none

/-- The gauges after the charges. -/
def chargeAll (charges : List Charge) (gauges : List Gauge) : List Gauge :=
  charges.foldl (fun gs c => gs.modify c.position (Gauge.charge c.units)) gauges

/-- What a reservation of the charges holds. -/
def holdingsOf (charges : List Charge) (gauges : List Gauge) : List Holding :=
  charges.filterMap fun c => (gauges[c.position]?).map fun g => ⟨c.position, c.units, g.epoch⟩

/-- Take one unit of a tier and what goes with it. -/
def reserve (l : Limiter) (id : String) (now : Timestamp) :
    Checked (Limiter × Except ThrottleError Reservation) :=
  match l.gauge? id with
  | none => .ok (l, .error (.unknownTier id))
  | some g => do
    let charges := g.quota.charges
    let gauges := rollAll now charges l.gauges
    match ← denial? now charges gauges with
    | some d =>
      return ({ l with gauges, stats := { l.stats with rejected := l.stats.rejected + 1 } },
        .error (.exceeded d))
    | none =>
      return (
        { l with
          gauges := chargeAll charges gauges
          stats := { l.stats with admitted := l.stats.admitted + 1 } },
        .ok ⟨l.id, id, holdingsOf charges gauges, now⟩)

/-- Whether a reservation is from this limiter. -/
def issued (l : Limiter) (r : Reservation) : Bool := r.limiter = l.id

/-- Take back a reservation that was never used. -/
def release (l : Limiter) (r : Reservation) : Limiter :=
  if l.issued r then
    { l with
      gauges := r.holdings.foldl (fun gs h => gs.modify h.position (Gauge.credit h.units h.epoch))
        l.gauges
      stats := { l.stats with released := l.stats.released + 1 } }
  else l

/-- Take back a reservation that was spent. -/
def record (l : Limiter) (r : Reservation) : Limiter :=
  if l.issued r then { l with stats := { l.stats with recorded := l.stats.recorded + 1 } } else l

/-- Reserve and spend at once. -/
def spend (l : Limiter) (id : String) (now : Timestamp) :
    Checked (Limiter × Except ThrottleError Unit) := do
  match ← l.reserve id now with
  | (l, .ok r) => return (l.record r, .ok ())
  | (l, .error e) => return (l, .error e)

/-- How a tier stands at `now`.  Looking starts a window if none is running. -/
def usage (l : Limiter) (id : String) (now : Timestamp) :
    Checked (Limiter × Except ThrottleError Usage) :=
  match l.gauge? id with
  | none => .ok (l, .error (.unknownTier id))
  | some g => do
    let gauges := l.gauges.map fun g => if g.quota.id = id then g.roll now else g
    return ({ l with gauges }, .ok (← (g.roll now).usage now))

/-- How all tiers stand at `now`, in the order of the table. -/
def usages (l : Limiter) (now : Timestamp) : Checked (Limiter × List Usage) := do
  let gauges := l.gauges.map (Gauge.roll now)
  return ({ l with gauges }, ← gauges.mapM fun g => g.usage now)

end Limiter

end SpotGateway
