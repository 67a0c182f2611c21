import SpotGateway.Exchange.Endpoint
import SpotGateway.Market.Book
import SpotGateway.Order.Tracker
import SpotGateway.Time.ServerClock
import SpotGateway.Wire.Limits
import SpotGateway.Wire.Orders

/-!
# Calls

* `OrderRequest` — an order as it is asked for;
* `Call` — what a session can be asked to find out or do;
* `Errand` — a call with all that is needed to make its request: `Errand.endpoint`,
  `Errand.request`;
* `Pending` — a request on its way;
* `Answer` — what comes out of a call.
-/

set_option autoImplicit false

namespace SpotGateway

/-- An order as it is asked for. -/
structure OrderRequest where
  pair : String
  side : Side
  kind : OrderKind
  amount : Decimal
  /-- Limit orders have one. -/
  price : Option Decimal
  deriving DecidableEq, Repr

/-- What a session can be asked to find out or do. -/
inductive Call where
  | ping
  | serverTime
  /-- Find out how the exchange's clock is shifted. -/
  | syncTime
  /-- Renew symbols and rules. -/
  | exchangeInfo
  | ticker (pair : String)
  | allPrices
  | bookTicker (pair : String)
  /-- Submit an order; `nonce` are the random digits of its client id. -/
  | place (order : OrderRequest) (nonce : String)
  | cancel (exchangeId : String)
  | status (exchangeId : String)
  | openOrders
  | allOrders
  | balances
  | trades (pair : String)
  | rateLimits
  | endpointLimits
  | documentation
  deriving DecidableEq, Repr

/-- A call with all that is needed to make its request. -/
inductive Errand where
  | ping
  | serverTime
  | syncTime (sentAt : Timestamp)
  | exchangeInfo
  | ticker (pair symbol : String)
  | allPrices
  | bookTicker (pair symbol : String)
  | place (order : InFlightOrder) (symbol : String)
  | cancel (exchangeId : String)
  | status (exchangeId : String)
  | openOrders
  | allOrders
  | balances
  | trades (pair symbol : String)
  | rateLimits
  | endpointLimits
  | documentation
  deriving DecidableEq, Repr

/-- The document that submits an order under the exchange's name for its pair. -/
def InFlightOrder.submission (o : InFlightOrder) (symbol : String) : OrderBody :=
  { market := symbol, bid := o.side = .buy, size := o.amount, price := o.price,
    kind := o.kind.text, clientId := o.clientId }

namespace Errand

def endpoint : Errand → Endpoint
  | .ping => .ping
  | .serverTime | .syncTime _ => .serverTime
  | .exchangeInfo => .exchangeInfo
  | .ticker _ _ | .allPrices => .tickerPrice
  | .bookTicker _ _ => .bookTicker
  | .place _ _ => .placeOrder
  | .cancel exchangeId => .cancelOrder exchangeId
  | .status exchangeId => .orderStatus exchangeId
  | .openOrders => .activeOrders
  | .allOrders => .allOrders
  | .balances => .account
  | .trades _ _ => .myTrades
  | .rateLimits => .rateLimits
  | .endpointLimits => .endpointLimits
  | .documentation => .documentation

/-- The request, without credentials. -/
def request (e : Errand) : Http.Request :=
  let bare := e.endpoint.request
  match e with
  | .ticker _ symbol | .bookTicker _ symbol | .trades _ symbol => bare.withQuery "symbol" symbol
  | .place order symbol => bare.withBody (order.submission symbol).text
  | _ => bare

/-- The order that is submitted. -/
def submitted : Errand → Option InFlightOrder
  | .place order _ => some order
  | _ => none

end Errand

/-- A request on its way. -/
structure Pending where
  errand : Errand
  /-- As it was sent. -/
  request : Http.Request
  reservation : Reservation
  /-- Place of the request among observations of orders. -/
  sequence : Nat
  deriving DecidableEq, Repr

/-- What comes out of a call. -/
inductive Answer where
  | done
  | time (t : Timestamp)
  | clock (c : ServerClock)
  | rules (rules : List TradingRule)
  | ticker (t : Ticker)
  | tickers (ts : List Ticker)
  | book (t : BookTicker)
  | order (o : InFlightOrder)
  | state (s : OrderState)
  | report (r : OrderReport)
  | reports (rs : List OrderReport)
  | balances (bs : List Balance)
  | fills (fs : List Fill)
  | rateLimits (l : RateLimits)
  | endpointLimits (l : EndpointLimits)
  | document (v : Json.Value)

end SpotGateway
