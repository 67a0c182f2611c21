import SpotGateway.Session.Replies

/-!
# Running calls

A call is started, which gives its request or an answer right away, and finished with what became of
the request.  Other calls may be started and finished in between.

* `Session.start`, `Session.finish` — the two halves;
* `GatewayError.mayHaveBeenAccepted` — whether a failed submission may exist on the exchange all the
  same;
* `Session.markFailed` — what becomes of the order if it certainly does not.
-/

set_option autoImplicit false

namespace SpotGateway

/-- Whether the exchange may have taken an order although its submission failed this way. -/
def GatewayError.mayHaveBeenAccepted : GatewayError → Bool
  | .deadlineExceeded sent => sent
  | .transportFailure error => error.reachedExchange
  | .parse _ => true
  | .exchange status _ _ => 500 ≤ status
  | _ => false

namespace Session

/-- Take note that the exchange did not take an order. -/
def markFailed (s : Session) (now : Readings) (clientId : String) : Checked Session := do
  let time ← s.serverNow now.record
  let (s, sequence) := s.nextSequence now.sequencer
  let update : OrderUpdate :=
    { clientId, exchangeId := none, state := .failed, executed := none, sequence, time }
  return (s.applyUpdate update).1

/-- Take note of a failure after a request was sent. -/
def afterFailure (s : Session) (now : Readings) (e : Errand) (error : GatewayError) :
    Checked Session :=
  match e.submitted with
  | some order =>
    if error.mayHaveBeenAccepted then .ok s else s.markFailed now order.clientId
  | none => .ok s

/-- Start a call: its request, or what stands in the way.  `expired` says that the deadline of the
call has passed already. -/
def start (s : Session) (now : Readings) (expired : Bool) (call : Call) :
    Checked (Session × Except GatewayError Pending) := do
  match ← s.plan now.record call with
  | .error e => return (s, .error e)
  | .ok errand => s.issue now expired errand

/-- Finish a call with what became of its request. -/
def finish (s : Session) (now : Readings) (p : Pending) (delivery : Http.Delivery) :
    Checked (Session × Except GatewayError Answer) :=
  match s.settle now.limiter p.reservation delivery with
  | (s, .error error) => do
    return (← s.afterFailure now p.errand error, .error error)
  | (s, .ok body) => s.takeBody now.record p.sequence p.errand body

end Session

end SpotGateway
