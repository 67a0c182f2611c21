import SpotGateway.Session.Run

/-!
# Operations that are stopped

An operation that is stopped by a fault leaves what it has done until then: windows that have been
started, budget that was reserved, an order that is tracked, and entries of a list that were taken in.
Only what would have come after is missing, such as handing the budget back.

* `Checked.orLeave` — an operation with what it leaves when it is stopped;
* `Limiter.reached`, `Limiter.afterStoppedReserve` — a reservation;
* `Limiter.afterStoppedUsage`, `Limiter.afterStoppedUsages` — looking;
* `Session.afterStoppedStart` — a call before its request was sent;
* `Session.afterStoppedReports`, `Session.afterStoppedFinish` — a call whose request was sent;
* `Session.attemptStart`, `Session.attemptFinish` — both halves, stopped or not.
-/

set_option autoImplicit false

namespace SpotGateway

/-- An operation on a state: what it makes of the state, or else what it leaves of it when it is
stopped. -/
def Checked.orLeave {σ α : Type} (operation : Checked (σ × α)) (left : σ) : σ × Checked α :=
  match operation with
  | .ok (state, result) => (state, .ok result)
  | .error fault => (left, .error fault)

namespace Limiter

/-- The charges that are looked at one after another, up to the first whose refusal has no value. -/
def reached (now : Timestamp) (gauges : List Gauge) : List Charge → List Charge
  | [] => []
  | c :: rest => if (denial? now [c] gauges).isOk then c :: reached now gauges rest else [c]

/-- The limiter when a reservation is stopped: tiers have been looked at, and none is charged. -/
def afterStoppedReserve (l : Limiter) (id : String) (now : Timestamp) : Limiter :=
  match l.gauge? id with
  | none => l
  | some g =>
    let looked := reached now (rollAll now g.quota.charges l.gauges) g.quota.charges
    { l with gauges := rollAll now looked l.gauges }

/-- The limiter when looking at a tier is stopped. -/
def afterStoppedUsage (l : Limiter) (id : String) (now : Timestamp) : Limiter :=
  { l with gauges := l.gauges.map fun g => if g.quota.id = id then g.roll now else g }

/-- The gauges when looking at one after another is stopped, up to the first whose window ends
nowhere. -/
def rolledUntilStopped (now : Timestamp) : List Gauge → List Gauge
  | [] => []
  | g :: rest =>
    if ((g.roll now).usage now).isOk then g.roll now :: rolledUntilStopped now rest
    else g.roll now :: rest

/-- The limiter when looking at all tiers is stopped. -/
def afterStoppedUsages (l : Limiter) (now : Timestamp) : Limiter :=
  { l with gauges := rolledUntilStopped now l.gauges }

end Limiter

namespace Session

/-- The session when the start of a call is stopped.  Budget that was reserved stays charged, for
nobody has the reservation any more. -/
def afterStoppedStart (s : Session) (now : Readings) (call : Call) : Session :=
  match s.plan now.record call with
  | .ok (.ok e) =>
    match s.limiter.reserve e.endpoint.tier now.limiter with
    | .ok (limiter, _) => { s with limiter }
    | .error _ => { s with limiter := s.limiter.afterStoppedReserve e.endpoint.tier now.limiter }
  | _ => s

/-- The session when taking in the entries of a list is stopped: those ahead of the entry that stops it
are taken in. -/
def afterStoppedReports (s : Session) (receivedAt : Timestamp) (sequence : Nat) :
    List OrderListEntry → Session
  | [] => s
  | e :: rest =>
    match Status.normalize e.status with
    | .error _ => s
    | .ok state =>
      match s.reportOf receivedAt sequence state e with
      | .error _ => s
      | .ok report => (s.observe report).afterStoppedReports receivedAt sequence rest

/-- The session when taking in the body of a reply is stopped. -/
def afterStoppedBody (s : Session) (now : Timestamp) (sequence : Nat) (e : Errand) (body : String) :
    Session :=
  match e with
  | .openOrders | .allOrders =>
    match readBody e (Json.Decoder.list OrderListEntry.decoder) body, s.serverNow now with
    | .ok entries, .ok receivedAt => s.afterStoppedReports receivedAt sequence entries
    | _, _ => s
  -- whatever else is taken in is dated first
  | _ => s

/-- The session when finishing a call is stopped: its budget has been handed back before. -/
def afterStoppedFinish (s : Session) (now : Readings) (p : Pending) (delivery : Http.Delivery) :
    Session :=
  match s.settle now.limiter p.reservation delivery with
  -- that an order has failed is dated before anything is noted
  | (s, .error _) => s
  | (s, .ok body) => s.afterStoppedBody now.record p.sequence p.errand body

/-- Start a call, as far as it goes. -/
def attemptStart (s : Session) (now : Readings) (expired : Bool) (call : Call) :
    Session × Checked (Except GatewayError Pending) :=
  Checked.orLeave (s.start now expired call) (s.afterStoppedStart now call)

/-- Finish a call, as far as it goes. -/
def attemptFinish (s : Session) (now : Readings) (p : Pending) (delivery : Http.Delivery) :
    Session × Checked (Except GatewayError Answer) :=
  Checked.orLeave (s.finish now p delivery) (s.afterStoppedFinish now p delivery)

end Session

end SpotGateway
