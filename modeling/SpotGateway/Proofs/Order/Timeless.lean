import SpotGateway.Order.Tracker
import SpotGateway.Proofs.Keyed

/-!
# Orders without their times

Times go into records of orders and are never looked at again: with all times blotted out, tracking,
observations and acknowledgements do what they do with them.

* `InFlightOrder.timeless`, `OrderUpdate.timeless`, `OrderReport.timeless`, `OrderTracker.timeless` —
  times blotted out;
* `InFlightOrder.timeless_applyUpdate` — one observation of an order;
* `OrderTracker.timeless_track`, `timeless_apply`, `timeless_acknowledge`, `timeless_observe`,
  `timeless_nextSequence` — the operations of a tracker.
-/

set_option autoImplicit false

namespace SpotGateway

/-- The order with the epoch for its times. -/
def InFlightOrder.timeless (o : InFlightOrder) : InFlightOrder :=
  { o with createdAt := .epoch, updatedAt := .epoch }

/-- The observation with the epoch for its time. -/
def OrderUpdate.timeless (u : OrderUpdate) : OrderUpdate := { u with time := .epoch }

/-- The report with the epoch for its time. -/
def OrderReport.timeless (r : OrderReport) : OrderReport := { r with time := .epoch }

/-- The tracker with the epoch for all times of its orders. -/
def OrderTracker.timeless (t : OrderTracker) : OrderTracker :=
  { t with orders := t.orders.mapValues InFlightOrder.timeless }

/-- Which observations count, and what they do, does not depend on times. -/
theorem InFlightOrder.timeless_applyUpdate (o : InFlightOrder) (u : OrderUpdate) :
    o.timeless.applyUpdate u.timeless =
      ((o.applyUpdate u).1.timeless, (o.applyUpdate u).2) := by
  have hstale : o.timeless.staleAgainst u.timeless = o.staleAgainst u := rfl
  have hcontradicts : o.timeless.contradicts u.timeless = o.contradicts u := rfl
  unfold applyUpdate
  rw [hstale, hcontradicts]
  cases o.staleAgainst u with
  | some last => rfl
  | none =>
    have hstate : o.timeless.state = o.state := rfl
    rw [hstate]
    cases o.state.isTerminal <;> cases o.contradicts u <;> rfl

namespace OrderTracker

variable (t : OrderTracker)

theorem get?_timeless (clientId : String) :
    t.timeless.get? clientId = (t.get? clientId).map InFlightOrder.timeless :=
  Keyed.get?_mapValues _ t.orders clientId

theorem getByExchangeId?_timeless (exchangeId : String) :
    t.timeless.getByExchangeId? exchangeId =
      (t.getByExchangeId? exchangeId).map InFlightOrder.timeless := by
  unfold getByExchangeId?
  have hindex : t.timeless.clientId? exchangeId = t.clientId? exchangeId := rfl
  rw [hindex]
  cases t.clientId? exchangeId with
  | none => rfl
  | some clientId => exact t.get?_timeless clientId

theorem timeless_nextSequence (now : Timestamp) :
    t.timeless.nextSequence now = ((t.nextSequence now).1.timeless, (t.nextSequence now).2) := rfl

theorem timeless_track (o : InFlightOrder) :
    t.timeless.track o.timeless = ((t.track o).1.timeless, (t.track o).2) := by
  have hindex : index t.timeless.exchangeIds o.timeless = index t.exchangeIds o := rfl
  have hknown : t.timeless.orders.contains o.timeless.clientId = t.orders.contains o.clientId := by
    unfold Keyed.contains
    rw [show t.timeless.orders.get? o.timeless.clientId = _ from t.get?_timeless o.clientId,
      Option.isSome_map]
    rfl
  unfold track
  rw [hindex, hknown]
  split
  · rfl
  · rw [timeless, timeless, Keyed.mapValues_set]
    rfl

theorem timeless_apply (u : OrderUpdate) :
    t.timeless.apply u.timeless = ((t.apply u).1.timeless, (t.apply u).2) := by
  have hget : t.timeless.get? u.timeless.clientId = (t.get? u.clientId).map InFlightOrder.timeless :=
    t.get?_timeless u.clientId
  unfold apply
  rw [hget]
  cases t.get? u.clientId with
  | none => rfl
  | some o =>
    simp only [Option.map_some, InFlightOrder.timeless_applyUpdate]
    rw [timeless, timeless, Keyed.mapValues_set]
    rfl

theorem timeless_acknowledge (clientId : String) :
    t.timeless.acknowledge clientId = ((t.acknowledge clientId).1.timeless,
      (t.acknowledge clientId).2.map InFlightOrder.timeless) := by
  unfold acknowledge
  rw [get?_timeless]
  cases t.get? clientId with
  | none => rfl
  | some o =>
    simp only [Option.map_some]
    rw [show o.timeless.isTerminal = o.isTerminal from rfl]
    split
    · rw [timeless, timeless, Keyed.mapValues_erase]
      rfl
    · rfl

theorem timeless_observe (r : OrderReport) :
    t.timeless.observe r.timeless = (t.observe r).timeless := by
  unfold observe
  rw [show t.timeless.clientId? r.timeless.exchangeId = t.clientId? r.exchangeId from rfl]
  cases t.clientId? r.exchangeId with
  | none => rfl
  | some clientId =>
    exact congrArg Prod.fst (t.timeless_apply (r.toUpdate clientId))

end OrderTracker

end SpotGateway
