import SpotGateway.Session.Basic
import SpotGateway.Session.Call

/-!
# Planning calls

Before anything is sent, names are translated and orders are brought to the exchange's grid and
checked.  Planning leaves the session as it is.

* `Session.quantize` — an order on the grid of its pair;
* `Session.checkOrder` — the first thing wrong with an order;
* `Session.planOrder` — the order that is going to be tracked and submitted;
* `Session.plan` — the errand of any call.
-/

set_option autoImplicit false

namespace SpotGateway.Session

/-- The order with amount and price rounded down to the grid of its pair, if a rule is known. -/
def quantize (s : Session) (order : OrderRequest) : Checked OrderRequest :=
  match s.rule? order.pair with
  | none => .ok order
  | some rule => do
    let amount ← rule.quantizeAmount order.amount
    match order.price with
    | none => return { order with amount }
    | some price => return { order with amount, price := some (← rule.quantizePrice price) }

/-- What is wrong with the price of an order. -/
def priceFault (order : OrderRequest) : Option InvalidOrder :=
  match order.price with
  | none => if order.kind.requiresPrice then some .priceMissing else none
  | some price => if price ≤ Decimal.zero then some (.priceNotPositive price) else none

/-- The first thing wrong with an order: its amount, its price, then the rule of its pair. -/
def checkOrder (s : Session) (order : OrderRequest) : Checked (Except InvalidOrder Unit) :=
  if order.amount ≤ Decimal.zero then .ok (.error (.amountNotPositive order.amount))
  else
    match priceFault order with
    | some reason => .ok (.error reason)
    | none =>
      match s.rule? order.pair with
      | none => .ok (.ok ())
      | some rule => do
        match ← rule.check order.amount order.price with
        | .error v => return .error (.violation v)
        | .ok () => return .ok ()

/-- The symbol of a pair that is open for trading, and the client id of the order. -/
def orderNames (s : Session) (order : OrderRequest) (nonce : String) :
    Except GatewayError (String × String) := do
  let symbol ← s.symbols.current.symbolOf order.pair
  if s.isTradable order.pair then
    let clientId := ClientId.make s.config.idHead order.side nonce
    ClientId.check clientId
    return (symbol, clientId)
  else .error (.invalidOrder (.notOpenForTrading order.pair))

/-- The order that is going to be submitted. -/
def planOrder (s : Session) (now : Timestamp) (order : OrderRequest) (nonce : String) :
    Checked (Except GatewayError Errand) := do
  let order ← s.quantize order
  match ← s.checkOrder order with
  | .error reason => return .error (.invalidOrder reason)
  | .ok () =>
    match s.orderNames order nonce with
    | .error e => return .error e
    | .ok (symbol, clientId) =>
      let createdAt ← s.serverNow now
      let tracked := InFlightOrder.create clientId order.pair order.side order.kind order.amount
        order.price createdAt
      return .ok (.place tracked symbol)

/-- The errand of a call that names a pair. -/
def withSymbol (s : Session) (pair : String) (errand : String → Errand) :
    Except GatewayError Errand :=
  (s.symbols.current.symbolOf pair).map errand

/-- The errand of a call. -/
def plan (s : Session) (now : Timestamp) : Call → Checked (Except GatewayError Errand)
  | .ping => .ok (.ok .ping)
  | .serverTime => .ok (.ok .serverTime)
  | .syncTime => .ok (.ok (.syncTime now))
  | .exchangeInfo => .ok (.ok .exchangeInfo)
  | .ticker pair => .ok (s.withSymbol pair (.ticker pair))
  | .allPrices => .ok (.ok .allPrices)
  | .bookTicker pair => .ok (s.withSymbol pair (.bookTicker pair))
  | .place order nonce => s.planOrder now order nonce
  | .cancel exchangeId => .ok (.ok (.cancel exchangeId))
  | .status exchangeId => .ok (.ok (.status exchangeId))
  | .openOrders => .ok (.ok .openOrders)
  | .allOrders => .ok (.ok .allOrders)
  | .balances => .ok (.ok .balances)
  | .trades pair => .ok (s.withSymbol pair (.trades pair))
  | .rateLimits => .ok (.ok .rateLimits)
  | .endpointLimits => .ok (.ok .endpointLimits)
  | .documentation => .ok (.ok .documentation)

end SpotGateway.Session
