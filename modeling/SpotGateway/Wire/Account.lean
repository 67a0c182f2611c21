import SpotGateway.Market.Book
import SpotGateway.Wire.Amount

/-!
# Replies about the account

* `Account` — holdings, each read by `BalanceEntry.decoder`;
* `TradeEntry` — an execution of one of the account's orders, with `TradeEntry.tradeId` and
  `TradeEntry.exchangeId`.
-/

set_option autoImplicit false

namespace SpotGateway

open Json

namespace BalanceEntry

def assetField : RecordField String := .required "currency" Decoder.text ["asset"]
def availableField : RecordField Decimal := .required "available" Amount.required ["free"]
def totalField : RecordField Decimal := .required "total" Amount.required []

/-- Holdings of one asset. -/
def decoder : Decoder Balance :=
  record [assetField.slot, availableField.slot, totalField.slot] fun fields => do
    return ⟨← fields.get assetField, ← fields.get availableField, ← fields.get totalField⟩

end BalanceEntry

/-- All holdings. -/
structure Account where
  balances : List Balance
  deriving DecidableEq, Repr

namespace Account

def balancesField : RecordField (List Balance) :=
  .defaulted "balances" (Decoder.list BalanceEntry.decoder) [] []

def decoder : Decoder Account :=
  record [balancesField.slot] fun fields => do
    return ⟨← fields.get balancesField⟩

end Account

/-- An execution of one of the account's orders. -/
structure TradeEntry where
  id : Value
  orderId : Value
  symbol : String
  price : Decimal
  amount : Decimal
  fee : Option Decimal
  feeAsset : Option String
  /-- Milliseconds since the epoch. -/
  time : Int
  isBuyer : Option Bool

namespace TradeEntry

def idField : RecordField Value := .required "id" Decoder.value ["tradeId"]
def orderIdField : RecordField Value := .required "orderId" Decoder.value ["order"]
def symbolField : RecordField String := .required "symbol" Decoder.text ["market"]
def priceField : RecordField Decimal := .required "price" Amount.required []
def amountField : RecordField Decimal := .required "qty" Amount.required ["size", "quantity"]
def feeField : RecordField (Option Decimal) := .defaulted "commission" Amount.optional ["fee"] none
def feeAssetField : RecordField (Option String) :=
  .optional "commissionAsset" Decoder.text ["feeAsset"]
def timeField : RecordField Int := .required "time" Decoder.integer ["timestamp"]
def isBuyerField : RecordField (Option Bool) := .optional "isBuyer" Decoder.bool ["bid"]

def decoder : Decoder TradeEntry :=
  record [idField.slot, orderIdField.slot, symbolField.slot, priceField.slot, amountField.slot,
    feeField.slot, feeAssetField.slot, timeField.slot, isBuyerField.slot] fun fields => do
    return {
      id := ← fields.get idField
      orderId := ← fields.get orderIdField
      symbol := ← fields.get symbolField
      price := ← fields.get priceField
      amount := ← fields.get amountField
      fee := ← fields.get feeField
      feeAsset := ← fields.get feeAssetField
      time := ← fields.get timeField
      isBuyer := ← fields.get isBuyerField }

/-- Ids come as text or as any other value. -/
def idText : Value → String
  | .string s => s
  | other => other.text

def tradeId (e : TradeEntry) : String := idText e.id

def exchangeId (e : TradeEntry) : String := idText e.orderId

end TradeEntry

end SpotGateway
