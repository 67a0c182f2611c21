/-!
# Replies

* `Response` — status and body, with `Response.isSuccess`;
* `TransportError` — why there is none, with `TransportError.reachedExchange`;
* `Delivery` — what becomes of a request that was sent.
-/

set_option autoImplicit false

namespace SpotGateway.Http

/-- A reply. -/
structure Response where
  status : Nat
  body : String
  deriving DecidableEq, Repr

def Response.isSuccess (r : Response) : Bool := 200 ≤ r.status && r.status < 300

/-- Why a request has no reply. -/
inductive TransportError where
  /-- It was never sent. -/
  | connect (reason : String)
  /-- It was sent, and no reply came. -/
  | request (reason : String)
  /-- A reply came and could not be read. -/
  | body (reason : String)
  deriving DecidableEq, Repr

namespace TransportError

/-- The exchange may have got the request. -/
def reachedExchange : TransportError → Bool
  | .connect _ => false
  | .request _ | .body _ => true

def message : TransportError → String
  | .connect reason => s!"Connection failed: {reason}"
  | .request reason => s!"Request failed: {reason}"
  | .body reason => s!"Failed to read response body: {reason}"

end TransportError

/-- What becomes of a request that was sent. -/
inductive Delivery where
  | reply (response : Response)
  | failed (error : TransportError)
  /-- The deadline passed first. -/
  | timedOut
  deriving DecidableEq, Repr

end SpotGateway.Http
