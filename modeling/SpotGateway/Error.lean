import SpotGateway.Exchange.Profile
import SpotGateway.Http.Response
import SpotGateway.Json.Record
import SpotGateway.Market.Rule
import SpotGateway.RateLimit.Limiter

/-!
# Errors

What can stand in the way of an operation, and how it is worded.

* `InvalidOrder`, `Unreadable`, `Misconfiguration` — what is wrong with an order, a text from the
  exchange, or the configuration;
* `GatewayError` — the causes, with `GatewayError.message`;
* `GatewayError.isRetryable` — whether trying again later makes sense;
* `GatewayError.ofResponse` — what a reply that is not a success means;
* `GatewayError.ofThrottle` — what a refusal by the rate limiter means.
-/

set_option autoImplicit false

namespace SpotGateway

/-- What is wrong with an order or with the way it is referred to. -/
inductive InvalidOrder where
  | amountNotPositive (amount : Decimal)
  | priceMissing
  | priceNotPositive (price : Decimal)
  | violation (v : Violation)
  | notOpenForTrading (pair : String)
  | idLength (clientId : String)
  | idCharacters (clientId : String)
  | alreadyTracked (clientId : String)
  | notTerminal (clientId : String)
  deriving DecidableEq, Repr

def InvalidOrder.message : InvalidOrder → String
  | .amountNotPositive amount => s!"amount must be positive, got {amount}"
  | .priceMissing => "limit order without price"
  | .priceNotPositive price => s!"price must be positive, got {price}"
  | .violation v => v.message
  | .notOpenForTrading pair => s!"{pair} is not open for trading"
  | .idLength clientId =>
    "client order id " ++ Text.quoted clientId ++
      s!" must be 1 to {Exchange.maxIdLength} characters"
  | .idCharacters clientId =>
    "client order id " ++ Text.quoted clientId ++ " contains invalid characters"
  | .alreadyTracked clientId => s!"client order id {clientId} already tracked"
  | .notTerminal clientId => s!"order {clientId} is not terminal"

/-- What is wrong with a text from the exchange. -/
inductive Unreadable where
  /-- The body of a reply to a request of that path. -/
  | body (path : String) (failure : Json.Failure) (body : String)
  /-- A frame of the stream. -/
  | frame (failure : Json.Failure)
  /-- A frame with an event of a known kind that lacks part of what the kind has. -/
  | event (kind text : String)
  | noPrice (symbol : String)
  | serverTime (millis : Int)
  | tradeTime (millis : Int)
  deriving DecidableEq, Repr

def Unreadable.message : Unreadable → String
  | .body path failure text => s!"{path}: " ++ failure.message ++ s!" in {text}"
  | .frame failure => failure.message
  | .event kind text => s!"malformed {kind} event: {text}"
  | .noPrice symbol => s!"no price for {symbol}"
  | .serverTime millis => "server time out of range: " ++ Text.signed millis
  | .tradeTime millis => "trade time out of range: " ++ Text.signed millis

/-- What is wrong with the configuration. -/
inductive Misconfiguration where
  | restUrlEmpty
  | timeoutZero
  | idHead (head : String)
  | noTier (id : String)
  | table (error : TableError)
  deriving DecidableEq, Repr

def Misconfiguration.message : Misconfiguration → String
  | .restUrlEmpty => "rest_url is empty"
  | .timeoutZero => "request_timeout_ms must be positive"
  | .idHead head => "invalid client order id prefix " ++ Text.quoted head
  | .noTier id => s!"no rate limit tier {id}"
  | .table error => error.message

/-- Why an operation has no result. -/
inductive GatewayError where
  /-- Refused by the rate limiter, or by the exchange for going too fast. -/
  | rateLimitExceeded (tier : String) (retryAfter : Span) (retryAt : Timestamp)
  | unknownPair (pair : String)
  | unknownSymbol (symbol : String)
  | unrecognizedStatus (status : String)
  | transportFailure (error : Http.TransportError)
  /-- `sent` says whether the exchange may have got the request. -/
  | deadlineExceeded ( sent : Bool)
  | authenticationRejected (status : Nat) (text : String)
  | exchange (status : Nat) (code : Option Int) (text : String)
  | orderNotFound (text : String)
  /-- No order of that client id is tracked. -/
  | unknownOrder (clientId : String)
  | invalidOrder (reason : InvalidOrder)
  /-- `subject` is mapped to two different names. -/
  | symbolConflict (subject first second : String)
  | parse (reason : Unreadable)
  | configuration (reason : Misconfiguration)
  deriving DecidableEq, Repr

namespace GatewayError

def codeText : Option Int → String
  | none => "None"
  | some code => "Some(" ++ Text.signed code ++ ")"

def flagText (b : Bool) : String := if b then "true" else "false"

def message : GatewayError → String
  | .rateLimitExceeded tier retryAfter retryAt =>
    s!"Rate limit exceeded on {tier}, retry after {retryAfter} (at " ++ retryAt.display ++ ")"
  | .unknownPair pair => s!"Unknown trading pair: {pair}"
  | .unknownSymbol symbol => s!"Unknown exchange symbol: {symbol}"
  | .unrecognizedStatus status => "Unrecognized order status: " ++ Text.quoted status
  | .transportFailure error => "Transport failure: " ++ error.message
  | .deadlineExceeded sent => "Deadline exceeded (request sent: " ++ flagText sent ++ ")"
  | .authenticationRejected status text => s!"Authentication rejected ({status}): {text}"
  | .exchange status code text =>
    s!"Exchange error {status} (code " ++ codeText code ++ s!"): {text}"
  | .orderNotFound text => s!"Order not found: {text}"
  | .unknownOrder clientId => s!"Unknown order: {clientId}"
  | .invalidOrder reason => "Invalid order: " ++ reason.message
  | .symbolConflict subject first second =>
    s!"Conflicting symbol mapping: {subject} maps to both {first} and {second}"
  | .parse reason => "Parse error: " ++ reason.message
  | .configuration reason => "Configuration error: " ++ reason.message

/-- Worth another try after a pause. -/
def isRetryable : GatewayError → Bool
  | .rateLimitExceeded _ _ _ | .deadlineExceeded _ | .transportFailure _ => true
  | .exchange status _ _ => 500 ≤ status
  | _ => false

def ofThrottle : ThrottleError → GatewayError
  | .exceeded d => .rateLimitExceeded d.tier d.retryAfter d.retryAt
  | .unknownTier id => .configuration (.noTier id)

/-- What the exchange says in a reply that is not a success. -/
structure Complaint where
  code : Option Int
  text : Option String
  deriving DecidableEq, Repr

namespace Complaint

open Json

def codeField : RecordField (Option Int) := .nullable "code" Decoder.integer []

def textField : RecordField (Option String) := .nullable "msg" Decoder.text ["message"]

def decoder : Decoder Complaint :=
  record [codeField.slot, textField.slot] fun fields => do
    return ⟨← fields.get codeField, ← fields.get textField⟩

/-- The code and the text of a body; a body of another form is the text itself. -/
def read (body : String) : Option Int × String :=
  match decode decoder body with
  | .ok c => (c.code, c.text.getD body)
  | .error _ => (none, body)

end Complaint

/-- What a reply that is not a success means.  One that asks to slow down does not say until when,
so that another try may be made at once. -/
def ofResponse (response : Http.Response) (receivedAt : Timestamp) : GatewayError :=
  let (code, text) := Complaint.read response.body
  if response.status = 401 ∨ response.status = 403 then
    .authenticationRejected response.status text
  else if response.status = 429 then .rateLimitExceeded "server" .zero receivedAt
  else if code = some Exchange.orderNotExistCode ∨ code = some Exchange.unknownOrderCode then
    .orderNotFound text
  else .exchange response.status code text

end GatewayError

end SpotGateway
