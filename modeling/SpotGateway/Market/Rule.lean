import SpotGateway.Decimal.Arithmetic

/-!
# Trading rules

The grid and the minimums that the exchange sets for orders of a pair.

* `TradingRule` — step, tick and minimums;
* `TradingRule.quantizePrice`, `TradingRule.quantizeAmount` — down to the grid;
* `TradingRule.check` — the first minimum an order fails (`Violation`).
-/

set_option autoImplicit false

namespace SpotGateway

/-- What the exchange requires of orders of one pair; zero stands for no requirement. -/
structure TradingRule where
  pair : String
  minSize : Decimal
  /-- Prices are multiples of this. -/
  tick : Decimal
  /-- Amounts are multiples of this. -/
  step : Decimal
  minNotional : Decimal
  deriving DecidableEq, Repr

/-- Which minimum an order fails. -/
inductive Violation where
  | belowMinSize (amount min : Decimal)
  | belowMinNotional (notional min : Decimal)
  deriving DecidableEq, Repr

def Violation.message : Violation → String
  | .belowMinSize amount min => s!"amount {amount} below minimum order size {min}"
  | .belowMinNotional notional min => s!"notional {notional} below minimum notional {min}"

namespace TradingRule

/-- The price rounded down to the tick. -/
def quantizePrice (r : TradingRule) (price : Decimal) : Checked Decimal := price.roundDownTo r.tick

/-- The amount rounded down to the step. -/
def quantizeAmount (r : TradingRule) (amount : Decimal) : Checked Decimal :=
  amount.roundDownTo r.step

/-- The minimum that the order fails, size before notional.  Orders without a price have no notional
to check. -/
def check (r : TradingRule) (amount : Decimal) (price : Option Decimal) :
    Checked (Except Violation Unit) :=
  if amount < r.minSize then .ok (.error (.belowMinSize amount r.minSize))
  else
    match price with
    | none => .ok (.ok ())
    | some price => do
      let notional ← amount.mul price
      if notional < r.minNotional then return .error (.belowMinNotional notional r.minNotional)
      else return .ok ()

end TradingRule

end SpotGateway
