import SpotGateway.RateLimit.Table

/-!
# The exchange

What is fixed about the exchange that the gateway talks to.

* addresses, path names, and names in documents;
* `tiers` — the rate limits that it publishes.
-/

set_option autoImplicit false

namespace SpotGateway.Exchange

def name : String := "apiengine"

def restUrl : String := "https://apiengine.demoapps.space/"

def wssUrl : String := "wss://apiengine.demoapps.space/ws"

/-- Client order ids start with this unless configured otherwise. -/
def defaultIdHead : String := "x-MG43PCSN"

/-- Client order ids have at most this many characters. -/
def maxIdLength : Nat := 32

namespace Path

def ping : String := "ping"
def serverTime : String := "time"
def exchangeInfo : String := "exchangeInfo"
def tickerPrice : String := "ticker/price"
def bookTicker : String := "ticker/bookTicker"
def depth : String := "depth"
def account : String := "account"
def myTrades : String := "myTrades"
def order : String := "order"
def allOrders : String := "order/all-orders"
def activeOrders : String := "order/active-orders"
def rateLimits : String := "ratelimits"
def endpointLimits : String := "ratelimits/endpoints"
def documentation : String := "ratelimits/documentation"

end Path

/-- The tier of all requests about one order. -/
def orderByIdTier : String := "order/:orderId"

/-- The stream expects a sign of life this often. -/
def heartbeat : Span := .ofSeconds 30

/-- Event type of changes to a book. -/
def depthEvent : String := "depthUpdate"

/-- Event type of trades. -/
def tradeEvent : String := "trade"

/-- Status of a symbol that is open for trading. -/
def tradingStatus : String := "TRADING"

/-- Code of the reply about an order that does not exist. -/
def orderNotExistCode : Int := -2013

def orderNotExistMessage : String := "Order does not exist"

/-- Code of the reply about an order that the exchange does not know. -/
def unknownOrderCode : Int := -2011

def unknownOrderMessage : String := "Unknown order sent"

/-- Tier of requests of one address. -/
def requestWeight : String := "REQUEST_WEIGHT"

/-- Tier of requests of one user. -/
def rawRequests : String := "RAW_REQUESTS"

/-- Tier of requests in quick succession. -/
def burst : String := "BURST"

/-- A tier that charges the tiers of the address and of the user along with itself. -/
def linkedToGlobal (t : Tier) : Tier := (t.linkedTo requestWeight 1).linkedTo rawRequests 1

/-- The published limits.  No tier is linked to the one for quick succession: it would hold all
requests together below what the exchange allows each of them.  It is there to be reserved by
itself. -/
def tiers : List Tier :=
  [.perMinute requestWeight 1200, .perMinute rawRequests 1200, .perSecond burst 10] ++
  [Tier.perMinute Path.ping 1200,
    .perMinute Path.serverTime 1200,
    .perMinute Path.exchangeInfo 1200,
    .perMinute Path.tickerPrice 1200,
    .perMinute Path.bookTicker 1200,
    .perMinute Path.depth 1200,
    .perMinute Path.myTrades 1200,
    .perSecond Path.order 10,
    .perSecond Path.activeOrders 10,
    .perSecond Path.allOrders 10,
    .perSecond orderByIdTier 5,
    .perSecond Path.account 10,
    .perMinute Path.rateLimits 1200,
    .perMinute Path.endpointLimits 1200,
    .perMinute Path.documentation 1200].map linkedToGlobal

end SpotGateway.Exchange
