import SpotGateway.Error
import SpotGateway.Keyed
import SpotGateway.Order.InFlight
import SpotGateway.Order.Sequencer

/-!
# Order tracking

The orders of a session by client id, with an index from exchange ids to client ids.  Orders that
have come to an end stay until they are acknowledged.

* `OrderTracker` — orders, index and sequencer;
* `OrderTracker.track`, `OrderTracker.apply`, `OrderTracker.acknowledge` — what changes it;
* `OrderTracker.get?`, `OrderTracker.clientId?`, `OrderTracker.getByExchangeId?` — lookup;
* `OrderReport` — what a poll says about an order.
-/

set_option autoImplicit false

namespace SpotGateway

/-- The orders of a session. -/
structure OrderTracker where
  /-- By client id. -/
  orders : Keyed InFlightOrder
  /-- Client ids by exchange id. -/
  exchangeIds : Keyed String
  sequencer : Sequencer
  deriving DecidableEq, Repr

namespace OrderTracker

def empty : OrderTracker := ⟨[], [], .initial⟩

/-- The place of something that happens now. -/
def nextSequence (t : OrderTracker) (now : Timestamp) : OrderTracker × Nat :=
  let (sequencer, place) := t.sequencer.next now
  ({ t with sequencer }, place)

def get? (t : OrderTracker) (clientId : String) : Option InFlightOrder := t.orders.get? clientId

def clientId? (t : OrderTracker) (exchangeId : String) : Option String :=
  t.exchangeIds.get? exchangeId

def getByExchangeId? (t : OrderTracker) (exchangeId : String) : Option InFlightOrder := do
  t.get? (← t.clientId? exchangeId)

/-- The index with the exchange id of an order, if it has one. -/
def index (exchangeIds : Keyed String) (o : InFlightOrder) : Keyed String :=
  match o.exchangeId with
  | some exchangeId => exchangeIds.set exchangeId o.clientId
  | none => exchangeIds

/-- Follow an order from now on.  The index takes its exchange id in any case; the order is refused
if there is one of its client id. -/
def track (t : OrderTracker) (o : InFlightOrder) : OrderTracker × Except GatewayError Unit :=
  let indexed := { t with exchangeIds := index t.exchangeIds o }
  if t.orders.contains o.clientId then
    (indexed, .error (.invalidOrder (.alreadyTracked o.clientId)))
  else ({ indexed with orders := t.orders.set o.clientId o }, .ok ())

/-- Take in an observation.  The first exchange id that an order gets goes into the index. -/
def apply (t : OrderTracker) (u : OrderUpdate) : OrderTracker × Except GatewayError UpdateOutcome :=
  match t.get? u.clientId with
  | none => (t, .error (.unknownOrder u.clientId))
  | some o =>
    let (after, outcome) := o.applyUpdate u
    let exchangeIds :=
      if outcome.isApplied && o.exchangeId.isNone then index t.exchangeIds after
      else t.exchangeIds
    ({ t with orders := t.orders.set u.clientId after, exchangeIds }, .ok outcome)

/-- Let go of an order that has come to an end. -/
def acknowledge (t : OrderTracker) (clientId : String) :
    OrderTracker × Except GatewayError InFlightOrder :=
  match t.get? clientId with
  | none => (t, .error (.unknownOrder clientId))
  | some o =>
    if o.isTerminal then
      let exchangeIds := match o.exchangeId with
        | some exchangeId => t.exchangeIds.erase exchangeId
        | none => t.exchangeIds
      ({ t with orders := t.orders.erase clientId, exchangeIds }, .ok o)
    else (t, .error (.invalidOrder (.notTerminal clientId)))

/-- Orders that have not come to an end. -/
def active (t : OrderTracker) : List InFlightOrder := t.orders.values.filter fun o => !o.isTerminal

/-- Orders that wait to be acknowledged. -/
def terminal (t : OrderTracker) : List InFlightOrder := t.orders.values.filter fun o => o.isTerminal

def size (t : OrderTracker) : Nat := t.orders.length

def isEmpty (t : OrderTracker) : Bool := t.orders.isEmpty

end OrderTracker

/-- What the exchange says about an order. -/
structure OrderReport where
  exchangeId : String
  /-- None if the exchange does not name the market or names one that is not known. -/
  pair : Option String
  state : OrderState
  amount : Option Decimal
  price : Option Decimal
  executed : Option Decimal
  time : Timestamp
  /-- Place of the request. -/
  sequence : Nat
  deriving DecidableEq, Repr

/-- The report as an observation of an order. -/
def OrderReport.toUpdate (r : OrderReport) (clientId : String) : OrderUpdate :=
  { clientId, exchangeId := some r.exchangeId, state := r.state, executed := r.executed,
    sequence := r.sequence, time := r.time }

/-- Take a report in for the order of its exchange id, if one is tracked. -/
def OrderTracker.observe (t : OrderTracker) (r : OrderReport) : OrderTracker :=
  match t.clientId? r.exchangeId with
  | some clientId => (t.apply (r.toUpdate clientId)).1
  | none => t

end SpotGateway
