import SpotGateway.Decimal.Arithmetic
import SpotGateway.Order.Side
import SpotGateway.Order.State
import SpotGateway.Time.Timestamp

/-!
# Orders in flight

An order is followed from its submission to a final state by observations, each with a place in one
sequence that all sources share.  An observation counts only if it is newer than the last one that
counted, and nothing moves an order out of a final state.

* `InFlightOrder` — the record of an order;
* `OrderUpdate` — an observation;
* `InFlightOrder.applyUpdate` — the record after an observation, with what became of it
  (`UpdateOutcome`);
* `InFlightOrder.phase`, `InFlightOrder.remaining` — derived facts.
-/

set_option autoImplicit false

namespace SpotGateway

/-- An order between submission and resolution. -/
structure InFlightOrder where
  clientId : String
  /-- Given by the exchange on acceptance. -/
  exchangeId : Option String
  pair : String
  side : Side
  kind : OrderKind
  amount : Decimal
  price : Option Decimal
  executed : Decimal
  state : OrderState
  createdAt : Timestamp
  updatedAt : Timestamp
  /-- Place of the last observation that counted. -/
  lastSequence : Option Nat
  deriving DecidableEq, Repr

/-- An observation of an order's state. -/
structure OrderUpdate where
  clientId : String
  exchangeId : Option String
  state : OrderState
  /-- Amount executed in all, where the source tells. -/
  executed : Option Decimal
  sequence : Nat
  time : Timestamp
  deriving DecidableEq, Repr

/-- What became of an observation. -/
inductive UpdateOutcome where
  | applied (previous current : OrderState)
  /-- It is not newer than the last one that counted. -/
  | stale (sequence lastSequence : Nat)
  | alreadyTerminal (state : OrderState)
  /-- It names another exchange id than the one on record. -/
  | exchangeIdMismatch
  deriving DecidableEq, Repr

def UpdateOutcome.isApplied : UpdateOutcome → Bool
  | .applied _ _ => true
  | _ => false

namespace InFlightOrder

/-- An order that has just been submitted. -/
def create (clientId pair : String) (side : Side) (kind : OrderKind) (amount : Decimal)
    (price : Option Decimal) (createdAt : Timestamp) : InFlightOrder :=
  { clientId, exchangeId := none, pair, side, kind, amount, price, executed := .zero,
    state := .pendingCreate, createdAt, updatedAt := createdAt, lastSequence := none }

def isTerminal (o : InFlightOrder) : Bool := o.state.isTerminal

def phase (o : InFlightOrder) : OrderPhase :=
  if o.state.isTerminal then .terminal
  else if o.state.isWorking then .working
  else if o.exchangeId.isSome then .submitted
  else .new

/-- What is still to be executed; never negative. -/
def remaining (o : InFlightOrder) : Checked Decimal := do
  return (← o.amount.sub o.executed).orZero

/-- The executed amount after an observation: as reported, or all of it when the order is reported
filled without an amount. -/
def executedAfter (o : InFlightOrder) (u : OrderUpdate) : Decimal :=
  match u.executed with
  | some executed => executed
  | none => if u.state = .filled then o.amount else o.executed

/-- The order after an observation that counts. -/
def advance (o : InFlightOrder) (u : OrderUpdate) : InFlightOrder :=
  { o with
    exchangeId := o.exchangeId <|> u.exchangeId
    state := u.state
    executed := o.executedAfter u
    updatedAt := u.time
    lastSequence := some u.sequence }

/-- Whether the observation names another exchange id than the one on record. -/
def contradicts (o : InFlightOrder) (u : OrderUpdate) : Bool :=
  match o.exchangeId, u.exchangeId with
  | some known, some reported => known != reported
  | _, _ => false

/-- The place of the last observation, if this one is not newer. -/
def staleAgainst (o : InFlightOrder) (u : OrderUpdate) : Option Nat :=
  match o.lastSequence with
  | some last => if u.sequence ≤ last then some last else none
  | none => none

/-- The record after an observation, and what became of it. -/
def applyUpdate (o : InFlightOrder) (u : OrderUpdate) : InFlightOrder × UpdateOutcome :=
  match o.staleAgainst u with
  | some last => (o, .stale u.sequence last)
  | none =>
    if o.state.isTerminal then (o, .alreadyTerminal o.state)
    else if o.contradicts u then (o, .exchangeIdMismatch)
    else (o.advance u, .applied o.state u.state)

end InFlightOrder

end SpotGateway
