import SpotGateway.Market.Book
import SpotGateway.Market.Rule
import SpotGateway.Symbols
import SpotGateway.Wire.Amount

/-!
# Replies about markets

* `ExchangeInfo`, `SymbolInfo` — the symbols of the exchange, with `SymbolInfo.rule`;
* `ServerTime` — the exchange's clock;
* `PriceListing` — one price or a list of them;
* `BookQuote` — the best bid and ask of a symbol.
-/

set_option autoImplicit false

namespace SpotGateway

open Json

/-- A symbol as the exchange describes it. -/
structure SymbolInfo where
  symbol : String
  /-- Some deployments leave it out. -/
  status : Option String
  base : String
  quote : String
  minSize : Option Decimal
  tick : Option Decimal
  step : Option Decimal
  minNotional : Option Decimal
  deriving DecidableEq, Repr

namespace SymbolInfo

def entry (s : SymbolInfo) : SymbolEntry := ⟨s.symbol, s.base, s.quote, s.status⟩

/-- The rule for orders of the pair; what is left out is not required. -/
def rule (s : SymbolInfo) (pair : String) : TradingRule :=
  { pair, minSize := s.minSize.getD .zero, tick := s.tick.getD .zero, step := s.step.getD .zero,
    minNotional := s.minNotional.getD .zero }

def symbolField : RecordField String := .required "symbol" Decoder.text []
def statusField : RecordField (Option String) := .optional "status" Decoder.text []
def baseField : RecordField String := .required "baseAsset" Decoder.text []
def quoteField : RecordField String := .required "quoteAsset" Decoder.text []
def minSizeField : RecordField (Option Decimal) := .defaulted "minOrderSize" Amount.optional [] none
def tickField : RecordField (Option Decimal) := .defaulted "tickSize" Amount.optional [] none
def stepField : RecordField (Option Decimal) := .defaulted "stepSize" Amount.optional [] none
def minNotionalField : RecordField (Option Decimal) :=
  .defaulted "minNotional" Amount.optional [] none

def decoder : Decoder SymbolInfo :=
  record [symbolField.slot, statusField.slot, baseField.slot, quoteField.slot, minSizeField.slot,
    tickField.slot, stepField.slot, minNotionalField.slot] fun fields => do
    return {
      symbol := ← fields.get symbolField
      status := ← fields.get statusField
      base := ← fields.get baseField
      quote := ← fields.get quoteField
      minSize := ← fields.get minSizeField
      tick := ← fields.get tickField
      step := ← fields.get stepField
      minNotional := ← fields.get minNotionalField }

end SymbolInfo

/-- All symbols of the exchange. -/
structure ExchangeInfo where
  symbols : List SymbolInfo
  deriving DecidableEq, Repr

namespace ExchangeInfo

def symbolsField : RecordField (List SymbolInfo) :=
  .defaulted "symbols" (Decoder.list SymbolInfo.decoder) [] []

def decoder : Decoder ExchangeInfo :=
  record [symbolsField.slot] fun fields => do
    return ⟨← fields.get symbolsField⟩

end ExchangeInfo

/-- The exchange's clock, in milliseconds since the epoch. -/
structure ServerTime where
  millis : Int
  deriving DecidableEq, Repr

namespace ServerTime

def millisField : RecordField Int := .required "serverTime" Decoder.integer ["time", "timestamp"]

def decoder : Decoder ServerTime :=
  record [millisField.slot] fun fields => do
    return ⟨← fields.get millisField⟩

end ServerTime

/-- The last price of a symbol. -/
structure SymbolPrice where
  symbol : String
  price : Decimal
  deriving DecidableEq, Repr

namespace SymbolPrice

def symbolField : RecordField String := .required "symbol" Decoder.text []
def priceField : RecordField Decimal := .required "price" Amount.required []

def decoder : Decoder SymbolPrice :=
  record [symbolField.slot, priceField.slot] fun fields => do
    return ⟨← fields.get symbolField, ← fields.get priceField⟩

end SymbolPrice

/-- The exchange answers with one price if asked about one symbol, and with a list otherwise. -/
inductive PriceListing where
  | one (price : SymbolPrice)
  | many (prices : List SymbolPrice)
  deriving DecidableEq, Repr

namespace PriceListing

def prices : PriceListing → List SymbolPrice
  | .one price => [price]
  | .many prices => prices

/-- One price if the document can be read so, and otherwise a list. -/
def decoder : Decoder PriceListing := fun room n => do
  let _ ← Decoder.value room n
  match SymbolPrice.decoder room n with
  | .ok price => return .one price
  | .error _ =>
    match Decoder.list SymbolPrice.decoder room n with
    | .ok prices => return .many prices
    | .error _ => .error .noListing

end PriceListing

/-- The best bid and ask of a symbol. -/
structure BookQuote where
  symbol : String
  bidPrice : Decimal
  bidSize : Decimal
  askPrice : Decimal
  askSize : Decimal
  deriving DecidableEq, Repr

namespace BookQuote

def symbolField : RecordField String := .required "symbol" Decoder.text []
def bidPriceField : RecordField Decimal := .required "bidPrice" Amount.required []
def bidSizeField : RecordField Decimal := .required "bidQty" Amount.required ["bidSize"]
def askPriceField : RecordField Decimal := .required "askPrice" Amount.required []
def askSizeField : RecordField Decimal := .required "askQty" Amount.required ["askSize"]

def decoder : Decoder BookQuote :=
  record [symbolField.slot, bidPriceField.slot, bidSizeField.slot, askPriceField.slot,
    askSizeField.slot] fun fields => do
    return {
      symbol := ← fields.get symbolField
      bidPrice := ← fields.get bidPriceField
      bidSize := ← fields.get bidSizeField
      askPrice := ← fields.get askPriceField
      askSize := ← fields.get askSizeField }

/-- The quote under the name of its pair. -/
def ticker (q : BookQuote) (pair : String) : BookTicker :=
  ⟨pair, q.bidPrice, q.bidSize, q.askPrice, q.askSize⟩

end BookQuote

end SpotGateway
