/-!
# Order states

* `OrderState` — where an order stands on the exchange; filled, canceled and failed are final;
* `OrderPhase` — the coarse course of an order, from new to terminal.
-/

set_option autoImplicit false

namespace SpotGateway

/-- Where an order stands. -/
inductive OrderState where
  /-- Submitted, or about to be, and not on the book. -/
  | pendingCreate
  /-- On the book with nothing filled. -/
  | open
  /-- On the book with some of it filled. -/
  | partiallyFilled
  | filled
  /-- Taken off the book before it was filled. -/
  | canceled
  /-- Rejected or expired. -/
  | failed
  deriving DecidableEq, Repr

namespace OrderState

/-- No order leaves these states. -/
def isTerminal : OrderState → Bool
  | .filled | .canceled | .failed => true
  | _ => false

def isActive (s : OrderState) : Bool := !s.isTerminal

/-- The order rests on the book. -/
def isWorking : OrderState → Bool
  | .open | .partiallyFilled => true
  | _ => false

def text : OrderState → String
  | .pendingCreate => "PENDING_CREATE"
  | .open => "OPEN"
  | .partiallyFilled => "PARTIALLY_FILLED"
  | .filled => "FILLED"
  | .canceled => "CANCELED"
  | .failed => "FAILED"

/-- Every state, in the order of an order's life. -/
def all : List OrderState := [.pendingCreate, .open, .partiallyFilled, .filled, .canceled, .failed]

/-- The state of a text. -/
def ofText? (s : String) : Option OrderState := all.find? fun state => state.text = s

theorem ofText?_text (s : OrderState) : ofText? s.text = some s := by cases s <;> decide

theorem isWorking_of_isTerminal {s : OrderState} (h : s.isTerminal = true) :
    s.isWorking = false := by
  revert h
  cases s <;> decide

end OrderState

/-- The coarse course of an order. -/
inductive OrderPhase where
  /-- It has a client id, and nothing has been heard of it. -/
  | new
  /-- The exchange has given it an id. -/
  | submitted
  /-- It rests on the book. -/
  | working
  | terminal
  deriving DecidableEq, Repr

namespace OrderPhase

/-- How far along a phase is. -/
def rank : OrderPhase → Nat
  | .new => 0
  | .submitted => 1
  | .working => 2
  | .terminal => 3

end OrderPhase

end SpotGateway
