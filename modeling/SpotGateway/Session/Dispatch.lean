import SpotGateway.Session.Planning

/-!
# Requests and their replies

Every request takes the same way: budget is reserved, credentials are put on, the deadline is looked
at, an order that is submitted is tracked, and the request goes out with its place in the sequence.
When it is known what became of it the budget is handed back: as never used if the request did not
leave, as spent otherwise.

* `Session.issue` — everything up to sending;
* `Session.settle` — from the delivery to the body of a successful reply.
-/

set_option autoImplicit false

namespace SpotGateway.Session

/-- Hand budget back as never used. -/
def release (s : Session) (r : Reservation) : Session :=
  { s with limiter := s.limiter.release r }

/-- Hand budget back as spent. -/
def record (s : Session) (r : Reservation) : Session :=
  { s with limiter := s.limiter.record r }

/-- The request of an errand as it is sent. -/
def requestOf (s : Session) (now : Timestamp) (e : Errand) : Checked Http.Request :=
  if e.endpoint.needsAuthentication then
    s.authenticator.decorate (s.signingTime now) e.request
  else .ok e.request

/-- Track the order that an errand submits, if it submits one. -/
def trackSubmitted (s : Session) (e : Errand) : Session × Except GatewayError Unit :=
  match e.submitted with
  | some order => s.track order
  | none => (s, .ok ())

/-- Everything up to sending.  `expired` says that the deadline has passed already. -/
def issue (s : Session) (now : Readings) (expired : Bool) (e : Errand) :
    Checked (Session × Except GatewayError Pending) := do
  let (limiter, admitted) ← s.limiter.reserve e.endpoint.tier now.limiter
  let s := { s with limiter }
  match admitted with
  | .error refusal => return (s, .error (.ofThrottle refusal))
  | .ok reservation =>
    let request ← s.requestOf now.signature e
    if expired then return (s.release reservation, .error (.deadlineExceeded false))
    else
      match s.trackSubmitted e with
      | (s, .error e) => return (s.release reservation, .error e)
      | (s, .ok ()) =>
        let (s, sequence) := s.nextSequence now.sequencer
        return (s, .ok { errand := e, request, reservation, sequence })

/-- The body of a successful reply, or what went wrong, with the budget handed back. -/
def settle (s : Session) (now : Timestamp) (reservation : Reservation) :
    Http.Delivery → Session × Except GatewayError String
  | .timedOut => (s.record reservation, .error (.deadlineExceeded true))
  | .failed error =>
    (if error.reachedExchange then s.record reservation else s.release reservation,
      .error (.transportFailure error))
  | .reply response =>
    (s.record reservation,
      if response.isSuccess then .ok response.body else .error (.ofResponse response now))

end SpotGateway.Session
