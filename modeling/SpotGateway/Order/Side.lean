/-!
# Sides and kinds of orders

* `Side` — buy or sell, with its name and tag;
* `OrderKind` — market or limit.
-/

set_option autoImplicit false

namespace SpotGateway

inductive Side where
  | buy
  | sell
  deriving DecidableEq, Repr

/-- The letter that client order ids carry. -/
def Side.tag : Side → Char
  | .buy => 'B'
  | .sell => 'S'

def Side.text : Side → String
  | .buy => "BUY"
  | .sell => "SELL"

/-- How an order is priced. -/
inductive OrderKind where
  /-- At whatever the market offers. -/
  | market
  /-- At the given price or better. -/
  | limit
  deriving DecidableEq, Repr

def OrderKind.requiresPrice : OrderKind → Bool
  | .market => false
  | .limit => true

def OrderKind.text : OrderKind → String
  | .market => "MARKET"
  | .limit => "LIMIT"

end SpotGateway
