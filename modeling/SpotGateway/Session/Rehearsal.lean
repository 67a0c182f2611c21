import SpotGateway.Session.Run

/-!
# Rehearsals

A session that talks to a scripted exchange.  Replies are taken from a queue; each comes after a
delay and may move the local clock when it comes.  Delays and deadlines run on a time of their own,
which passes only while a call waits.

* `ScriptedReply` — a reply and when it comes;
* `Rehearsal` — session, local clock, elapsed time and queue;
* `Rehearsal.begin` — start a call and see it through as far as no time has to pass;
* `Rehearsal.await` — see a waiting call through.
-/

set_option autoImplicit false

namespace SpotGateway

/-- A reply and when it comes. -/
structure ScriptedReply where
  outcome : Except Http.TransportError Http.Response
  delayMillis : Nat
  /-- By how much the local clock moves when the reply comes. -/
  advanceNanos : Int

namespace ScriptedReply

/-- What requests meet when the script is at its end. -/
def exhausted : ScriptedReply := ⟨.error (.request "nothing scripted"), 0, 0⟩

def delivery (r : ScriptedReply) : Http.Delivery :=
  match r.outcome with
  | .ok response => .reply response
  | .error error => .failed error

end ScriptedReply

/-- A call that waits for its reply. -/
structure Flight where
  pending : Pending
  reply : ScriptedReply
  /-- When the reply comes, in elapsed milliseconds. -/
  arrival : Nat
  /-- When the call is given up. -/
  deadline : Nat

/-- How far a call has come. -/
inductive Progress where
  | finished (result : Except GatewayError Answer)
  | waiting (flight : Flight)

/-- A session that talks to a scripted exchange. -/
structure Rehearsal where
  session : Session
  /-- The local clock. -/
  now : Timestamp
  /-- Milliseconds that calls have waited. -/
  elapsed : Nat
  queue : List ScriptedReply

namespace Rehearsal

/-- Move the local clock. -/
def advance (r : Rehearsal) (nanos : Int) : Checked Rehearsal := do
  return { r with now := ← r.now.plus nanos }

/-- Let time pass in which nothing is waited for. -/
def sleep (r : Rehearsal) (millis : Nat) : Rehearsal := { r with elapsed := r.elapsed + millis }

/-- Finish a call. -/
def finish (r : Rehearsal) (p : Pending) (d : Http.Delivery) :
    Checked (Rehearsal × Except GatewayError Answer) := do
  let (session, result) ← r.session.finish (.still r.now) p d
  return ({ r with session }, result)

/-- Finish a call with its reply, which comes now. -/
def deliver (r : Rehearsal) (f : Flight) : Checked (Rehearsal × Except GatewayError Answer) := do
  (← r.advance f.reply.advanceNanos).finish f.pending f.reply.delivery

/-- See a waiting call through.  A reply that is there is taken even after the deadline. -/
def await (r : Rehearsal) (f : Flight) : Checked (Rehearsal × Except GatewayError Answer) :=
  if f.arrival ≤ r.elapsed then r.deliver f
  else if f.deadline ≤ r.elapsed then r.finish f.pending .timedOut
  else if f.arrival ≤ f.deadline then { r with elapsed := f.arrival }.deliver f
  else { r with elapsed := f.deadline }.finish f.pending .timedOut

/-- Start a call that has so many milliseconds of time, and see it through unless its reply is
delayed.  Besides how far it came, the answer is the request that was sent, if one was. -/
def begin (r : Rehearsal) (timeoutMillis : Nat) (call : Call) :
    Checked (Rehearsal × Option Http.Request × Progress) := do
  let (session, started) ← r.session.start (.still r.now) (timeoutMillis = 0) call
  let r := { r with session }
  match started with
  | .error e => return (r, none, .finished (.error e))
  | .ok pending =>
    let reply := r.queue.headD .exhausted
    let r := { r with queue := r.queue.tail }
    let flight : Flight :=
      ⟨pending, reply, r.elapsed + reply.delayMillis, r.elapsed + timeoutMillis⟩
    if reply.delayMillis = 0 then
      let (r, result) ← r.deliver flight
      return (r, some pending.request, .finished result)
    else return (r, some pending.request, .waiting flight)

/-- Start a call against replies of its own, if it brings any; they are gone afterwards. -/
def beginWith (r : Rehearsal) (own : Option (List ScriptedReply)) (timeoutMillis : Nat)
    (call : Call) : Checked (Rehearsal × Option Http.Request × Progress) :=
  match own with
  | none => r.begin timeoutMillis call
  | some queue => do
    let (r, sent, progress) ← { r with queue }.begin timeoutMillis call
    return ({ r with queue := [] }, sent, progress)

end Rehearsal

end SpotGateway
