import SpotGateway.Decimal.Arithmetic
import SpotGateway.Time.Timestamp
import SpotGateway.Order.Side

/-!
# Prices, balances and fills

What the exchange reports about markets and the account.

* `Ticker` — last price of a pair;
* `BookTicker` — best bid and ask, with `mid` and `spread`;
* `Balance` — holdings of an asset, with `locked`;
* `Fill` — one execution of an order, with `notional`.
-/

set_option autoImplicit false

namespace SpotGateway

/-- Last traded price of a pair. -/
structure Ticker where
  pair : String
  price : Decimal
  deriving DecidableEq, Repr

/-- Best bid and ask of a pair. -/
structure BookTicker where
  pair : String
  bidPrice : Decimal
  bidSize : Decimal
  askPrice : Decimal
  askSize : Decimal
  deriving DecidableEq, Repr

/-- Half of the sum of bid and ask. -/
def BookTicker.mid (t : BookTicker) : Checked Decimal := do
  (← t.bidPrice.add t.askPrice).div .two

/-- Ask less bid. -/
def BookTicker.spread (t : BookTicker) : Checked Decimal := t.askPrice.sub t.bidPrice

/-- Holdings of one asset. -/
structure Balance where
  asset : String
  /-- Free for new orders. -/
  available : Decimal
  /-- Including what open orders hold. -/
  total : Decimal
  deriving DecidableEq, Repr

/-- What open orders hold; never negative. -/
def Balance.locked (b : Balance) : Checked Decimal := do
  return (← b.total.sub b.available).orZero

/-- One execution of an order. -/
structure Fill where
  tradeId : String
  exchangeId : String
  pair : String
  side : Side
  price : Decimal
  amount : Decimal
  /-- Positive if it was charged. -/
  fee : Decimal
  feeAsset : Option String
  time : Timestamp
  deriving DecidableEq, Repr

/-- Value of the fill in the quote asset. -/
def Fill.notional (f : Fill) : Checked Decimal := f.price.mul f.amount

end SpotGateway
