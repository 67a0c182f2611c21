import SpotGateway.Exchange.Status
import SpotGateway.Session.Dispatch
import SpotGateway.Wire.Account
import SpotGateway.Wire.MarketData

/-!
# Taking in replies

What the body of a successful reply does to a session and what it answers, for each kind of call.

* `Session.takeExchangeInfo` — symbols and rules are renewed together;
* `Session.tickerOf`, `Session.tickersOf` — prices;
* `Session.takePlaced`, `Session.takeCancelled`, `Session.takeStatus`, `Session.takeReports` —
  orders;
* `Session.fillsOf` — executions;
* `Session.takeBody` — any call.
-/

set_option autoImplicit false

namespace SpotGateway.Session

/-- Read the body of a reply. -/
def readBody {α : Type} (e : Errand) (d : Json.Decoder α) (body : String) : Except GatewayError α :=
  match Json.decode d body with
  | .ok a => .ok a
  | .error failure => .error (.parse (.body e.endpoint.path failure body))

/-- The instant of a reply about the exchange's clock. -/
def serverTimeOf (e : Errand) (body : String) : Except GatewayError Timestamp := do
  let reply ← readBody e ServerTime.decoder body
  match Timestamp.ofMillis? reply.millis with
  | some t => return t
  | none => .error (.parse (.serverTime reply.millis))

/-- The rules of symbols by pair. -/
def rulesOf (symbols : List SymbolInfo) : Keyed TradingRule :=
  symbols.foldl (fun rules s => rules.set s.entry.pair (s.rule s.entry.pair)) []

/-- Renew symbols and rules.  The answer are the rules of pairs that are open for trading, sorted
by pair.  Symbols that contradict each other change nothing. -/
def takeExchangeInfo (s : Session) (info : ExchangeInfo) :
    Session × Except GatewayError (List TradingRule) :=
  match s.symbols.refresh (info.symbols.map SymbolInfo.entry) with
  | (_, .error e) => (s, .error e)
  | (symbols, .ok ()) =>
    let rules := rulesOf info.symbols
    let tradable := rules.values.filter fun r => symbols.isTradable r.pair
    ({ s with symbols, rules }, .ok (tradable.mergeSort fun a b => decide (a.pair ≤ b.pair)))

/-- The price of a symbol in a listing, under the name of its pair. -/
def tickerOf (pair symbol : String) (listing : PriceListing) : Except GatewayError Ticker :=
  match listing.prices.find? fun p => p.symbol = symbol with
  | some p => .ok ⟨pair, p.price⟩
  | none => .error (.parse (.noPrice symbol))

/-- All prices of a listing whose symbols are known, under the names of their pairs. -/
def tickersOf (m : SymbolMap) (listing : PriceListing) : List Ticker :=
  listing.prices.filterMap fun p => (m.ofSymbol? p.symbol).map fun l => ⟨l.pair, p.price⟩

/-- Take in the reply to a submission.  The answer is the order as it is tracked. -/
def takePlaced (s : Session) (now : Timestamp) (clientId : String) (sequence : Nat)
    (reply : OrderReply) : Checked (Session × Except GatewayError InFlightOrder) :=
  match Status.normalize reply.status with
  | .error e => .ok (s, .error e)
  | .ok state => do
    let time ← match reply.updatedAt <|> reply.createdAt with
      | some t => .ok t
      | none => s.serverNow now
    let update : OrderUpdate :=
      { clientId, exchangeId := some reply.id, state, executed := reply.executed, sequence, time }
    match s.applyUpdate update with
    | (s, .error e) => return (s, .error e)
    | (s, .ok _) =>
      match s.tracker.get? clientId with
      | some o => return (s, .ok o)
      | none => return (s, .error (.unknownOrder clientId))

/-- The state that a reply to a cancellation reports: canceled, unless it says otherwise. -/
def cancelledState (exchangeId : String) (reply : CancelReply) : Except GatewayError OrderState :=
  if reply.success = some false then
    .error (.exchange 200 none s!"cancel of {exchangeId} not accepted")
  else
    match reply.status with
    | some status => Status.normalize status
    | none => .ok .canceled

/-- Take in the reply to a cancellation. -/
def takeCancelled (s : Session) (now : Timestamp) (exchangeId : String) (sequence : Nat)
    (reply : CancelReply) : Checked (Session × Except GatewayError OrderState) :=
  match cancelledState exchangeId reply with
  | .error e => .ok (s, .error e)
  | .ok state => do
    let time ← s.serverNow now
    let report : OrderReport :=
      { exchangeId, pair := none, state, amount := none, price := none, executed := none, time,
        sequence }
    return (s.observe report, .ok state)

/-- The pair of a symbol, if it is known. -/
def pairOf? (s : Session) (symbol : String) : Option String :=
  (s.symbols.current.ofSymbol? symbol).map Listing.pair

/-- Take in the reply about one order. -/
def takeStatus (s : Session) (now : Timestamp) (sequence : Nat) (reply : OrderReply) :
    Checked (Session × Except GatewayError OrderReport) := do
  let receivedAt ← s.serverNow now
  match Status.normalize reply.status with
  | .error e => return (s, .error e)
  | .ok state =>
    let report : OrderReport :=
      { exchangeId := reply.id
        pair := reply.market.bind s.pairOf?
        state
        amount := reply.size
        price := reply.price
        executed := reply.executed
        time := reply.updatedAt.getD receivedAt
        sequence }
    return (s.observe report, .ok report)

/-- What an entry of a list says about its order, in the given state. -/
def reportOf (s : Session) (receivedAt : Timestamp) (sequence : Nat) (state : OrderState)
    (e : OrderListEntry) : Checked OrderReport := do
  return {
    exchangeId := e.id
    pair := s.pairOf? e.market
    state
    amount := some (e.placedSize.getD e.size)
    price := e.price
    executed := ← e.executed
    time := receivedAt
    sequence }

/-- Take in the entries of a list one after another, up to the first whose status is not known. -/
def takeReports (s : Session) (receivedAt : Timestamp) (sequence : Nat) :
    List OrderListEntry → Checked (Session × Except GatewayError (List OrderReport))
  | [] => .ok (s, .ok [])
  | e :: rest =>
    match Status.normalize e.status with
    | .error error => .ok (s, .error error)
    | .ok state => do
      let report ← s.reportOf receivedAt sequence state e
      let (s, later) ← takeReports (s.observe report) receivedAt sequence rest
      return (s, later.map (report :: ·))

/-- The side of an execution: as it says, or that of its order if the order is tracked. -/
def sideOf (s : Session) (e : TradeEntry) : Option Side :=
  match e.isBuyer with
  | some isBuyer => some (.ofBid isBuyer)
  | none => (s.tracker.getByExchangeId? e.exchangeId).map InFlightOrder.side

/-- An execution on the given side. -/
def fillOf (pair : String) (side : Side) (e : TradeEntry) : Except GatewayError Fill :=
  match Timestamp.ofMillis? e.time with
  | none => .error (.parse (.tradeTime e.time))
  | some time =>
    .ok {
      tradeId := e.tradeId
      exchangeId := e.exchangeId
      pair
      side
      price := e.price
      amount := e.amount
      fee := e.fee.getD .zero
      feeAsset := e.feeAsset
      time }

/-- The executions of a list; one whose side cannot be told is passed over. -/
def fillsOf (s : Session) (pair : String) : List TradeEntry → Except GatewayError (List Fill)
  | [] => .ok []
  | e :: rest =>
    match s.sideOf e with
    | none => fillsOf s pair rest
    | some side => do
      let fill ← fillOf pair side e
      return fill :: (← fillsOf s pair rest)

/-- An answer that leaves the session as it is. -/
def answer (s : Session) (result : Except GatewayError Answer) :
    Checked (Session × Except GatewayError Answer) :=
  .ok (s, result)

/-- Take in a reply that is read first. -/
def taking {α : Type} (s : Session) (result : Except GatewayError α)
    (take : α → Checked (Session × Except GatewayError Answer)) :
    Checked (Session × Except GatewayError Answer) :=
  match result with
  | .error e => .ok (s, .error e)
  | .ok a => take a

/-- Take in a list of orders. -/
def takeOrderList (s : Session) (now : Timestamp) (sequence : Nat) (e : Errand) (body : String) :
    Checked (Session × Except GatewayError Answer) :=
  s.taking (readBody e (Json.Decoder.list OrderListEntry.decoder) body) fun entries => do
    let receivedAt ← s.serverNow now
    let (s, reports) ← s.takeReports receivedAt sequence entries
    return (s, reports.map .reports)

/-- Take in the body of a successful reply that arrives now. -/
def takeBody (s : Session) (now : Timestamp) (sequence : Nat) (e : Errand) (body : String) :
    Checked (Session × Except GatewayError Answer) :=
  match e with
  | .ping => s.answer (.ok .done)
  | .serverTime => s.answer ((serverTimeOf e body).map .time)
  | .syncTime sentAt => s.taking (serverTimeOf e body) fun server =>
    let clock := ServerClock.observed server sentAt now
    .ok ({ s with clock }, .ok (.clock clock))
  | .exchangeInfo => s.taking (readBody e ExchangeInfo.decoder body) fun info =>
    let (s, rules) := s.takeExchangeInfo info
    .ok (s, rules.map .rules)
  | .ticker pair symbol => s.answer do
    return .ticker (← tickerOf pair symbol (← readBody e PriceListing.decoder body))
  | .allPrices => s.answer do
    return .tickers (tickersOf s.symbols.current (← readBody e PriceListing.decoder body))
  | .bookTicker pair _ => s.answer do
    return .book ((← readBody e BookQuote.decoder body).ticker pair)
  | .place order _ => s.taking (readBody e OrderReply.decoder body) fun reply => do
    let (s, placed) ← s.takePlaced now order.clientId sequence reply
    return (s, placed.map .order)
  | .cancel exchangeId => s.taking (readBody e CancelReply.decoder body) fun reply => do
    let (s, state) ← s.takeCancelled now exchangeId sequence reply
    return (s, state.map .state)
  | .status _ => s.taking (readBody e OrderReply.decoder body) fun reply => do
    let (s, report) ← s.takeStatus now sequence reply
    return (s, report.map .report)
  | .openOrders => s.takeOrderList now sequence e body
  | .allOrders => s.takeOrderList now sequence e body
  | .balances => s.answer do
    return .balances (← readBody e Account.decoder body).balances
  | .trades pair _ => s.answer do
    return .fills (← s.fillsOf pair (← readBody e (Json.Decoder.list TradeEntry.decoder) body))
  | .rateLimits => s.answer do
    return .rateLimits (← readBody e RateLimits.decoder body)
  | .endpointLimits => s.answer do
    return .endpointLimits (← readBody e EndpointLimits.decoder body)
  | .documentation => s.answer do
    return .document (← readBody e Json.Decoder.value body)

end SpotGateway.Session
