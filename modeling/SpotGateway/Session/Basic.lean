import SpotGateway.Authentication
import SpotGateway.Market.Rule
import SpotGateway.Order.Tracker
import SpotGateway.Time.ServerClock
import SpotGateway.Wire.Stream

/-!
# Sessions

What the gateway knows in the course of its talk with the exchange: settings and credentials, the
budget of requests, symbols and rules, orders, and the shift of the exchange's clock.  Local time is
not part of it; whoever uses a session says what time it is.

* `Readings` — what the local clock says whenever it is read;
* `Session` — with `Session.create`;
* `Session.serverNow` — the exchange's time at a local time;
* `Session.rule?`, `Session.isTradable` — what is known about a pair;
* `Session.nextSequence`, `Session.track`, `Session.applyUpdate`, `Session.acknowledge`,
  `Session.observe` — orders;
* `Session.streamEvent`, `Session.subscription` — the stream of market data.
-/

set_option autoImplicit false

namespace SpotGateway

/-- What the local clock says in the course of one half of a call, which reads it for each purpose by
itself. -/
structure Readings where
  /-- For what is put on record, such as when an order was made and when an answer came. -/
  record : Timestamp
  /-- For the budget, and for when there is going to be some again. -/
  limiter : Timestamp
  /-- For the signature. -/
  signature : Timestamp
  /-- For the place in the sequence. -/
  sequencer : Timestamp
  deriving DecidableEq, Repr

/-- The clock stands still. -/
def Readings.still (now : Timestamp) : Readings := ⟨now, now, now, now⟩

/-- What the gateway knows. -/
structure Session where
  config : Config
  authenticator : Authenticator
  /-- Signatures carry the exchange's time and not the local one. -/
  signsServerTime : Bool
  limiter : Limiter
  symbols : SymbolTable
  /-- By pair. -/
  rules : Keyed TradingRule
  tracker : OrderTracker
  clock : ServerClock

namespace Session

/-- A session that has not talked to the exchange. -/
def create (config : Config) (credentials : Credentials) : Except GatewayError Session := do
  config.validate
  match Table.build Exchange.tiers with
  | .error e => .error (.configuration (.table e))
  | .ok table =>
    return {
      config
      authenticator := ⟨credentials, config.signing⟩
      signsServerTime := true
      limiter := .create 0 table
      symbols := .create config.missingStatus
      rules := []
      tracker := .empty
      clock := .unshifted }

/-- The session with other credentials, whose signatures carry local time. -/
def withLocalAuthenticator (s : Session) (authenticator : Authenticator) : Session :=
  { s with authenticator, signsServerTime := false }

/-- The exchange's time at a local time. -/
def serverNow (s : Session) (now : Timestamp) : Checked Timestamp := s.clock.read now

/-- The time that a signature carries. -/
def signingTime (s : Session) (now : Timestamp) : Checked Timestamp :=
  if s.signsServerTime then s.serverNow now else .ok now

def rule? (s : Session) (pair : String) : Option TradingRule := s.rules.get? pair

def isTradable (s : Session) (pair : String) : Bool := s.symbols.isTradable pair

/-- The place of something that happens now. -/
def nextSequence (s : Session) (now : Timestamp) : Session × Nat :=
  let (tracker, place) := s.tracker.nextSequence now
  ({ s with tracker }, place)

/-- Follow an order from now on. -/
def track (s : Session) (o : InFlightOrder) : Session × Except GatewayError Unit :=
  let (tracker, result) := s.tracker.track o
  ({ s with tracker }, result)

/-- Take in an observation from elsewhere. -/
def applyUpdate (s : Session) (u : OrderUpdate) : Session × Except GatewayError UpdateOutcome :=
  let (tracker, result) := s.tracker.apply u
  ({ s with tracker }, result)

/-- Let go of an order that has come to an end. -/
def acknowledge (s : Session) (clientId : String) : Session × Except GatewayError InFlightOrder :=
  let (tracker, result) := s.tracker.acknowledge clientId
  ({ s with tracker }, result)

/-- Take in what the exchange says about an order. -/
def observe (s : Session) (r : OrderReport) : Session :=
  { s with tracker := s.tracker.observe r }

/-- The event of a frame of the stream. -/
def streamEvent (s : Session) (frame : String) : Except GatewayError (Option StreamEvent) :=
  Stream.read frame s.symbols.current

/-- The channels of pairs. -/
def channelsOf (m : SymbolMap) : List String → Except GatewayError (List String)
  | [] => .ok []
  | pair :: rest => do
    let symbol ← m.symbolOf pair
    return Stream.channels symbol ++ (← channelsOf m rest)

/-- The request for events about pairs. -/
def subscription (s : Session) (pairs : List String) (id : Nat) :
    Except GatewayError Json.Value := do
  return Stream.subscription (← channelsOf s.symbols.current pairs) id

end Session

end SpotGateway
