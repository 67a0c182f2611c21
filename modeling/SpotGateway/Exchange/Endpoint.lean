import SpotGateway.Exchange.Profile
import SpotGateway.Http.Request

/-!
# Endpoints

The operations of the exchange.

* `Endpoint` — the catalogue;
* `Endpoint.method`, `Endpoint.path`, `Endpoint.request` — what is sent;
* `Endpoint.tier` — the rate limit tier that is charged;
* `Endpoint.needsAuthentication`.
-/

set_option autoImplicit false

namespace SpotGateway

/-- An operation of the exchange. -/
inductive Endpoint where
  | ping
  | serverTime
  | exchangeInfo
  | tickerPrice
  | bookTicker
  | depth
  | account
  | myTrades
  | placeOrder
  | orderStatus (id : String)
  | cancelOrder (id : String)
  | allOrders
  | activeOrders
  | rateLimits
  | endpointLimits
  | documentation
  deriving DecidableEq, Repr

namespace Endpoint

open Exchange

def method : Endpoint → Http.Method
  | .placeOrder => .post
  | .cancelOrder _ => .delete
  | _ => .get

/-- The path below the base address. -/
def path : Endpoint → String
  | .ping => Path.ping
  | .serverTime => Path.serverTime
  | .exchangeInfo => Path.exchangeInfo
  | .tickerPrice => Path.tickerPrice
  | .bookTicker => Path.bookTicker
  | .depth => Path.depth
  | .account => Path.account
  | .myTrades => Path.myTrades
  | .placeOrder => Path.order
  | .orderStatus id | .cancelOrder id => Path.order ++ "/" ++ id
  | .allOrders => Path.allOrders
  | .activeOrders => Path.activeOrders
  | .rateLimits => Path.rateLimits
  | .endpointLimits => Path.endpointLimits
  | .documentation => Path.documentation

/-- The tier that is charged: named like the path, except that all requests about one order share
a tier. -/
def tier : Endpoint → String
  | .orderStatus _ | .cancelOrder _ => orderByIdTier
  | e => e.path

/-- Whether the request has to carry credentials. -/
def needsAuthentication : Endpoint → Bool
  | .account | .myTrades | .placeOrder | .orderStatus _ | .cancelOrder _ | .allOrders
  | .activeOrders => true
  | _ => false

/-- The request without credentials. -/
def request (e : Endpoint) : Http.Request := .bare e.method e.path

end Endpoint

end SpotGateway
