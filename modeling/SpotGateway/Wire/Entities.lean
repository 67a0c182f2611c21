import SpotGateway.Market.Book
import SpotGateway.Market.Rule
import SpotGateway.Order.InFlight
import SpotGateway.Power
import SpotGateway.Wire.Amount

/-!
# The gateway's own documents

Orders, observations, rules, balances and prices as documents that the gateway keeps.  Members have
the order of the declarations, amounts are text, and constants go by name.

Each type has a decoder and a text, `InFlightOrder.decoder` and `InFlightOrder.document` and so on.
-/

set_option autoImplicit false

namespace SpotGateway

open Json

/-- A member that may be null. -/
def nullableText {α : Type} (f : α → String) : Option α → String
  | some a => f a
  | none => "null"

def Decimal.document (d : Decimal) : String := stringText d.text

def Timestamp.document (t : Timestamp) : String := stringText t.text

namespace Side

def constant : Side → String
  | .buy => "Buy"
  | .sell => "Sell"

def ofConstant? (s : String) : Option Side := [buy, sell].find? fun side => side.constant = s

def decoder : Decoder Side := Decoder.name ofConstant?

def document (s : Side) : String := stringText s.constant

end Side

namespace OrderKind

def constant : OrderKind → String
  | .market => "Market"
  | .limit => "Limit"

def ofConstant? (s : String) : Option OrderKind :=
  [market, limit].find? fun kind => kind.constant = s

def decoder : Decoder OrderKind := Decoder.name ofConstant?

def document (k : OrderKind) : String := stringText k.constant

end OrderKind

namespace OrderState

def constant : OrderState → String
  | .pendingCreate => "PendingCreate"
  | .open => "Open"
  | .partiallyFilled => "PartiallyFilled"
  | .filled => "Filled"
  | .canceled => "Canceled"
  | .failed => "Failed"

def ofConstant? (s : String) : Option OrderState := all.find? fun state => state.constant = s

def decoder : Decoder OrderState := Decoder.name ofConstant?

def document (s : OrderState) : String := stringText s.constant

end OrderState

namespace OrderPhase

def constant : OrderPhase → String
  | .new => "New"
  | .submitted => "Submitted"
  | .working => "Working"
  | .terminal => "Terminal"

def ofConstant? (s : String) : Option OrderPhase :=
  [new, submitted, working, terminal].find? fun phase => phase.constant = s

def decoder : Decoder OrderPhase := Decoder.name ofConstant?

def document (p : OrderPhase) : String := stringText p.constant

end OrderPhase

namespace InFlightOrder

def clientIdField : RecordField String := .required "client_order_id" Decoder.text []
def exchangeIdField : RecordField (Option String) := .nullable "exchange_order_id" Decoder.text []
def pairField : RecordField String := .required "trading_pair" Decoder.text []
def sideField : RecordField Side := .required "side" Side.decoder []
def kindField : RecordField OrderKind := .required "order_type" OrderKind.decoder []
def amountField : RecordField Decimal := .required "amount" Amount.exact []
def priceField : RecordField (Option Decimal) := .nullable "price" Amount.exact []
def executedField : RecordField Decimal := .required "executed_amount" Amount.exact []
def stateField : RecordField OrderState := .required "state" OrderState.decoder []
def createdAtField : RecordField Timestamp := .required "created_at" Decoder.timestamp []
def updatedAtField : RecordField Timestamp := .required "updated_at" Decoder.timestamp []
def lastSequenceField : RecordField (Option Nat) :=
  .nullable "last_sequence" (Decoder.natural word64) []

def decoder : Decoder InFlightOrder :=
  record [clientIdField.slot, exchangeIdField.slot, pairField.slot, sideField.slot, kindField.slot,
    amountField.slot, priceField.slot, executedField.slot, stateField.slot, createdAtField.slot,
    updatedAtField.slot, lastSequenceField.slot] fun fields => do
    return {
      clientId := ← fields.get clientIdField
      exchangeId := ← fields.get exchangeIdField
      pair := ← fields.get pairField
      side := ← fields.get sideField
      kind := ← fields.get kindField
      amount := ← fields.get amountField
      price := ← fields.get priceField
      executed := ← fields.get executedField
      state := ← fields.get stateField
      createdAt := ← fields.get createdAtField
      updatedAt := ← fields.get updatedAtField
      lastSequence := ← fields.get lastSequenceField }

def document (o : InFlightOrder) : String :=
  objectText [
    ("client_order_id", stringText o.clientId),
    ("exchange_order_id", nullableText stringText o.exchangeId),
    ("trading_pair", stringText o.pair),
    ("side", o.side.document),
    ("order_type", o.kind.document),
    ("amount", o.amount.document),
    ("price", nullableText Decimal.document o.price),
    ("executed_amount", o.executed.document),
    ("state", o.state.document),
    ("created_at", o.createdAt.document),
    ("updated_at", o.updatedAt.document),
    ("last_sequence", nullableText Text.decimal o.lastSequence)]

end InFlightOrder

namespace OrderUpdate

def clientIdField : RecordField String := .required "client_order_id" Decoder.text []
def exchangeIdField : RecordField (Option String) := .nullable "exchange_order_id" Decoder.text []
def stateField : RecordField OrderState := .required "state" OrderState.decoder []
def executedField : RecordField (Option Decimal) := .nullable "executed_amount" Amount.exact []
def sequenceField : RecordField Nat := .required "sequence" (Decoder.natural word64) []
def timeField : RecordField Timestamp := .required "update_time" Decoder.timestamp []

def decoder : Decoder OrderUpdate :=
  record [clientIdField.slot, exchangeIdField.slot, stateField.slot, executedField.slot,
    sequenceField.slot, timeField.slot] fun fields => do
    return {
      clientId := ← fields.get clientIdField
      exchangeId := ← fields.get exchangeIdField
      state := ← fields.get stateField
      executed := ← fields.get executedField
      sequence := ← fields.get sequenceField
      time := ← fields.get timeField }

def document (u : OrderUpdate) : String :=
  objectText [
    ("client_order_id", stringText u.clientId),
    ("exchange_order_id", nullableText stringText u.exchangeId),
    ("state", u.state.document),
    ("executed_amount", nullableText Decimal.document u.executed),
    ("sequence", Text.decimal u.sequence),
    ("update_time", u.time.document)]

end OrderUpdate

namespace TradingRule

def pairField : RecordField String := .required "trading_pair" Decoder.text []
def minSizeField : RecordField Decimal := .required "min_order_size" Amount.exact []
def tickField : RecordField Decimal := .required "min_price_increment" Amount.exact []
def stepField : RecordField Decimal := .required "min_base_amount_increment" Amount.exact []
def minNotionalField : RecordField Decimal := .required "min_notional_size" Amount.exact []

def decoder : Decoder TradingRule :=
  record [pairField.slot, minSizeField.slot, tickField.slot, stepField.slot,
    minNotionalField.slot] fun fields => do
    return {
      pair := ← fields.get pairField
      minSize := ← fields.get minSizeField
      tick := ← fields.get tickField
      step := ← fields.get stepField
      minNotional := ← fields.get minNotionalField }

def document (r : TradingRule) : String :=
  objectText [
    ("trading_pair", stringText r.pair),
    ("min_order_size", r.minSize.document),
    ("min_price_increment", r.tick.document),
    ("min_base_amount_increment", r.step.document),
    ("min_notional_size", r.minNotional.document)]

end TradingRule

namespace Balance

def assetField : RecordField String := .required "asset" Decoder.text []
def availableField : RecordField Decimal := .required "available" Amount.exact []
def totalField : RecordField Decimal := .required "total" Amount.exact []

def decoder : Decoder Balance :=
  record [assetField.slot, availableField.slot, totalField.slot] fun fields => do
    return {
      asset := ← fields.get assetField
      available := ← fields.get availableField
      total := ← fields.get totalField }

def document (b : Balance) : String :=
  objectText [
    ("asset", stringText b.asset),
    ("available", b.available.document),
    ("total", b.total.document)]

end Balance

namespace Ticker

def pairField : RecordField String := .required "trading_pair" Decoder.text []
def priceField : RecordField Decimal := .required "price" Amount.exact []

def decoder : Decoder Ticker :=
  record [pairField.slot, priceField.slot] fun fields => do
    return ⟨← fields.get pairField, ← fields.get priceField⟩

def document (t : Ticker) : String :=
  objectText [("trading_pair", stringText t.pair), ("price", t.price.document)]

end Ticker

namespace BookTicker

def pairField : RecordField String := .required "trading_pair" Decoder.text []
def bidPriceField : RecordField Decimal := .required "bid_price" Amount.exact []
def bidSizeField : RecordField Decimal := .required "bid_size" Amount.exact []
def askPriceField : RecordField Decimal := .required "ask_price" Amount.exact []
def askSizeField : RecordField Decimal := .required "ask_size" Amount.exact []

def decoder : Decoder BookTicker :=
  record [pairField.slot, bidPriceField.slot, bidSizeField.slot, askPriceField.slot,
    askSizeField.slot] fun fields => do
    return {
      pair := ← fields.get pairField
      bidPrice := ← fields.get bidPriceField
      bidSize := ← fields.get bidSizeField
      askPrice := ← fields.get askPriceField
      askSize := ← fields.get askSizeField }

def document (t : BookTicker) : String :=
  objectText [
    ("trading_pair", stringText t.pair),
    ("bid_price", t.bidPrice.document),
    ("bid_size", t.bidSize.document),
    ("ask_price", t.askPrice.document),
    ("ask_size", t.askSize.document)]

end BookTicker

namespace Fill

def tradeIdField : RecordField String := .required "trade_id" Decoder.text []
def exchangeIdField : RecordField String := .required "exchange_order_id" Decoder.text []
def pairField : RecordField String := .required "trading_pair" Decoder.text []
def sideField : RecordField Side := .required "side" Side.decoder []
def priceField : RecordField Decimal := .required "price" Amount.exact []
def amountField : RecordField Decimal := .required "amount" Amount.exact []
def feeField : RecordField Decimal := .required "fee" Amount.exact []
def feeAssetField : RecordField (Option String) := .nullable "fee_asset" Decoder.text []
def timeField : RecordField Timestamp := .required "timestamp" Decoder.timestamp []

def decoder : Decoder Fill :=
  record [tradeIdField.slot, exchangeIdField.slot, pairField.slot, sideField.slot, priceField.slot,
    amountField.slot, feeField.slot, feeAssetField.slot, timeField.slot] fun fields => do
    return {
      tradeId := ← fields.get tradeIdField
      exchangeId := ← fields.get exchangeIdField
      pair := ← fields.get pairField
      side := ← fields.get sideField
      price := ← fields.get priceField
      amount := ← fields.get amountField
      fee := ← fields.get feeField
      feeAsset := ← fields.get feeAssetField
      time := ← fields.get timeField }

def document (f : Fill) : String :=
  objectText [
    ("trade_id", stringText f.tradeId),
    ("exchange_order_id", stringText f.exchangeId),
    ("trading_pair", stringText f.pair),
    ("side", f.side.document),
    ("price", f.price.document),
    ("amount", f.amount.document),
    ("fee", f.fee.document),
    ("fee_asset", nullableText stringText f.feeAsset),
    ("timestamp", f.time.document)]

end Fill

end SpotGateway
