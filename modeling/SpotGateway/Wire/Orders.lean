import SpotGateway.Decimal.Arithmetic
import SpotGateway.Decimal.Binary
import SpotGateway.Order.Side
import SpotGateway.Wire.Amount

/-!
# Orders in requests and replies

* `OrderBody` — an order as it is submitted, with `OrderBody.text`;
* `OrderReply` — an order as it is reported after submission or by id;
* `CancelReply` — what becomes of a cancellation;
* `OrderListEntry` — an order in a list, with `OrderListEntry.executed`.
-/

set_option autoImplicit false

namespace SpotGateway

open Json

/-- An order as it is submitted. -/
structure OrderBody where
  market : String
  /-- Buy orders are bids. -/
  bid : Bool
  size : Decimal
  price : Option Decimal
  kind : String
  clientId : String
  deriving DecidableEq, Repr

/-- Bids are on the buying side. -/
def Side.ofBid (bid : Bool) : Side := if bid then .buy else .sell

namespace OrderBody

def side (b : OrderBody) : Side := .ofBid b.bid

def boolText (b : Bool) : String := if b then "true" else "false"

/-- The document; it has a price only if the order has. -/
def text (b : OrderBody) : String :=
  objectText (
    [("market", stringText b.market), ("bid", boolText b.bid), ("size", b.size.numberText)] ++
    (b.price.toList.map fun price => ("price", price.numberText)) ++
    [("type", stringText b.kind), ("clientOrderId", stringText b.clientId)])

end OrderBody

/-- An order as the exchange reports it. -/
structure OrderReply where
  id : String
  userId : Option String
  market : Option String
  kind : Option String
  bid : Option Bool
  size : Option Decimal
  price : Option Decimal
  /-- Executed in all. -/
  executed : Option Decimal
  currency : Option String
  status : String
  createdAt : Option Timestamp
  updatedAt : Option Timestamp
  deriving DecidableEq, Repr

namespace OrderReply

def idField : RecordField String := .required "id" Decoder.text []
def userIdField : RecordField (Option String) := .optional "userId" Decoder.text []
def marketField : RecordField (Option String) := .optional "market" Decoder.text []
def kindField : RecordField (Option String) := .optional "type" Decoder.text []
def bidField : RecordField (Option Bool) := .optional "bid" Decoder.bool []
def sizeField : RecordField (Option Decimal) := .defaulted "size" Amount.optional [] none
def priceField : RecordField (Option Decimal) := .defaulted "price" Amount.optional [] none
def executedField : RecordField (Option Decimal) :=
  .defaulted "executedSize" Amount.optional ["filledSize", "tradeSize"] none
def currencyField : RecordField (Option String) := .optional "currency" Decoder.text []
def statusField : RecordField String := .required "status" Decoder.text []
def createdAtField : RecordField (Option Timestamp) := .optional "createdAt" Decoder.timestamp []
def updatedAtField : RecordField (Option Timestamp) := .optional "updatedAt" Decoder.timestamp []

def decoder : Decoder OrderReply :=
  record [idField.slot, userIdField.slot, marketField.slot, kindField.slot, bidField.slot,
    sizeField.slot, priceField.slot, executedField.slot, currencyField.slot, statusField.slot,
    createdAtField.slot, updatedAtField.slot] fun fields => do
    return {
      id := ← fields.get idField
      userId := ← fields.get userIdField
      market := ← fields.get marketField
      kind := ← fields.get kindField
      bid := ← fields.get bidField
      size := ← fields.get sizeField
      price := ← fields.get priceField
      executed := ← fields.get executedField
      currency := ← fields.get currencyField
      status := ← fields.get statusField
      createdAt := ← fields.get createdAtField
      updatedAt := ← fields.get updatedAtField }

end OrderReply

/-- What becomes of a cancellation. -/
structure CancelReply where
  status : Option String
  success : Option Bool
  deriving DecidableEq, Repr

namespace CancelReply

def statusField : RecordField (Option String) := .optional "status" Decoder.text []
def successField : RecordField (Option Bool) := .optional "success" Decoder.bool []

def decoder : Decoder CancelReply :=
  record [statusField.slot, successField.slot] fun fields => do
    return ⟨← fields.get statusField, ← fields.get successField⟩

end CancelReply

/-- An order in a list. -/
structure OrderListEntry where
  id : String
  userId : Option String
  market : String
  price : Option Decimal
  /-- Nanoseconds since the epoch, as text. -/
  timestamp : Option String
  placedSize : Option Decimal
  status : String
  bids : Bool
  orderType : Option String
  /-- Still to be executed. -/
  size : Decimal
  displayStatus : Option String
  matchedOrders : List Value
  placedType : Option String
  tradedPrice : Option Decimal
  tradeSize : Option Decimal
  meanMatchPrice : Option Decimal

namespace OrderListEntry

def idField : RecordField String := .required "id" Decoder.text []
def userIdField : RecordField (Option String) := .optional "userId" Decoder.text []
def marketField : RecordField String := .required "market" Decoder.text []
def priceField : RecordField (Option Decimal) := .defaulted "price" Amount.optional [] none
def timestampField : RecordField (Option String) := .optional "timestamp" Decoder.text []
def placedSizeField : RecordField (Option Decimal) :=
  .defaulted "originalSize" Amount.optional [] none
def statusField : RecordField String := .required "status" Decoder.text []
def bidsField : RecordField Bool := .required "bids" Decoder.bool []
def orderTypeField : RecordField (Option String) := .optional "orderType" Decoder.text []
def sizeField : RecordField Decimal := .required "size" Amount.required []
def displayStatusField : RecordField (Option String) := .optional "displayStatus" Decoder.text []
def matchedOrdersField : RecordField (List Value) :=
  .defaulted "matchedOrders" (Decoder.list Decoder.value) [] []
def placedTypeField : RecordField (Option String) := .optional "orderPlacedType" Decoder.text []
def tradedPriceField : RecordField (Option Decimal) :=
  .defaulted "tradedPrice" Amount.optional [] none
def tradeSizeField : RecordField (Option Decimal) := .defaulted "tradeSize" Amount.optional [] none
def meanMatchPriceField : RecordField (Option Decimal) :=
  .defaulted "meanMatchPrice" Amount.optional [] none

def decoder : Decoder OrderListEntry :=
  record [idField.slot, userIdField.slot, marketField.slot, priceField.slot, timestampField.slot,
    placedSizeField.slot, statusField.slot, bidsField.slot, orderTypeField.slot, sizeField.slot,
    displayStatusField.slot, matchedOrdersField.slot, placedTypeField.slot, tradedPriceField.slot,
    tradeSizeField.slot, meanMatchPriceField.slot] fun fields => do
    return {
      id := ← fields.get idField
      userId := ← fields.get userIdField
      market := ← fields.get marketField
      price := ← fields.get priceField
      timestamp := ← fields.get timestampField
      placedSize := ← fields.get placedSizeField
      status := ← fields.get statusField
      bids := ← fields.get bidsField
      orderType := ← fields.get orderTypeField
      size := ← fields.get sizeField
      displayStatus := ← fields.get displayStatusField
      matchedOrders := ← fields.get matchedOrdersField
      placedType := ← fields.get placedTypeField
      tradedPrice := ← fields.get tradedPriceField
      tradeSize := ← fields.get tradeSizeField
      meanMatchPrice := ← fields.get meanMatchPriceField }

def side (e : OrderListEntry) : Side := .ofBid e.bids

/-- When the order was placed, in nanoseconds since the epoch, if the text can be read. -/
def placedAt (e : OrderListEntry) : Option Nat := do
  Text.natural? 64 (Text.trim (← e.timestamp).toList)

/-- Executed so far: as reported, or what is gone from the size it was placed with. -/
def executed (e : OrderListEntry) : Checked (Option Decimal) :=
  match e.tradeSize, e.placedSize with
  | some traded, _ => .ok (some traded)
  | none, none => .ok none
  | none, some placed => do
    return some (← placed.sub e.size).orZero

end OrderListEntry

end SpotGateway
