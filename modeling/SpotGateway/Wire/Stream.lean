import SpotGateway.Decimal.Reader
import SpotGateway.Json.Decoder
import SpotGateway.Order.Side
import SpotGateway.Symbols
import SpotGateway.Text.LowerCase

/-!
# Stream of market data

Events about books and trades come as frames of text, either plain or within an envelope that names
the channel.  Frames that are not events are passed over.

* `DepthUpdate`, `TradeEvent`, `StreamEvent`;
* `Stream.read` — the event of a frame, with the symbol translated to its pair;
* `Stream.channels`, `Stream.subscription` — asking for events.
-/

set_option autoImplicit false

namespace SpotGateway

/-- A price of the book with all that is offered at it; zero takes the price off the book. -/
structure BookLevel where
  price : Decimal
  amount : Decimal
  deriving DecidableEq, Repr

/-- Changes to the book of a pair. -/
structure DepthUpdate where
  pair : String
  eventTime : Int
  firstId : Nat
  finalId : Nat
  bids : List BookLevel
  asks : List BookLevel
  deriving DecidableEq, Repr

/-- A trade of a pair. -/
structure TradeEvent where
  pair : String
  tradeId : Nat
  price : Decimal
  amount : Decimal
  tradeTime : Int
  buyerIsMaker : Bool
  deriving DecidableEq, Repr

/-- The side of whoever took what was on the book. -/
def TradeEvent.takerSide (t : TradeEvent) : Side := if t.buyerIsMaker then .sell else .buy

/-- An event about a market. -/
inductive StreamEvent where
  | depth (update : DepthUpdate)
  | trade (event : TradeEvent)
  deriving DecidableEq, Repr

namespace Stream

open Json

/-- An amount as text without blanks around it, or as a number. -/
def amount? : Value → Option Decimal
  | .string s => Decimal.ofText? s
  | .number n => Decimal.ofText? n.text
  | _ => none

/-- The levels of a list; items with fewer than two elements are passed over. -/
def levelsOf? : List Value → Option (List BookLevel)
  | [] => some []
  | .array (price :: amount :: _) :: rest => do
    let level := ⟨← amount? price, ← amount? amount⟩
    return level :: (← levelsOf? rest)
  | .array _ :: rest => levelsOf? rest
  | _ :: _ => none

def levels? (v : Value) : Option (List BookLevel) := v.items?.bind levelsOf?

/-- Symbol and content of a change to a book. -/
def depth? (data : Value) : Option (String × (String → StreamEvent)) := do
  let symbol ← (← data.get? "s").string?
  let eventTime ← (← data.get? "E").integer?
  let firstId ← (← data.get? "U").natural?
  let finalId ← (← data.get? "u").natural?
  let bids ← levels? (← data.get? "b")
  let asks ← levels? (← data.get? "a")
  return (symbol, fun pair => .depth { pair, eventTime, firstId, finalId, bids, asks })

/-- Symbol and content of a trade. -/
def trade? (data : Value) : Option (String × (String → StreamEvent)) := do
  let symbol ← (← data.get? "s").string?
  let tradeId ← (← data.get? "t").natural?
  let price ← amount? (← data.get? "p")
  let amount ← amount? (← data.get? "q")
  let tradeTime ← (← data.get? "T").integer?
  let buyerIsMaker ← (← data.get? "m").bool?
  return (symbol, fun pair => .trade { pair, tradeId, price, amount, tradeTime, buyerIsMaker })

/-- What a frame is about: the content of its envelope, or itself if it has none. -/
def dataOf (message : Value) : Value := (message.get? "data").getD message

/-- How events of a kind are read, if they are read at all. -/
def reader? (kind : String) : Option (Value → Option (String × (String → StreamEvent))) :=
  if kind = Exchange.depthEvent then some depth?
  else if kind = Exchange.tradeEvent then some trade?
  else none

/-- The event of a message; `frame` is its text. -/
def eventOf (message : Value) (frame : String) (symbols : SymbolMap) :
    Except GatewayError (Option StreamEvent) :=
  let data := dataOf message
  match (data.get? "e").bind Value.string? with
  | none => .ok none
  | some kind =>
    match reader? kind with
    | none => .ok none
    | some read =>
      match read data with
      | none => .error (.parse (.event kind frame))
      | some (symbol, event) => do
        return some (event (← symbols.pairOf symbol))

/-- The event of a frame; none if the frame is not an event. -/
def read (frame : String) (symbols : SymbolMap) : Except GatewayError (Option StreamEvent) :=
  match decode Decoder.value frame with
  | .error failure => .error (.parse (.frame failure))
  | .ok message => eventOf message frame symbols

/-- The channels of a symbol: changes to the book, and trades. -/
def channels (symbol : String) : List String :=
  let name := Text.lowerCase symbol
  [name ++ "@depth", name ++ "@trade"]

/-- The request for events of channels. -/
def subscription (channels : List String) (id : Nat) : Value :=
  .ofMembers [
    ("method", .string "SUBSCRIBE"),
    ("params", .array (channels.map .string)),
    ("id", .number (.natural id))]

end Stream

end SpotGateway
