import SpotGateway.Time.Timestamp

/-!
# The exchange's clock

Local time shifted by whole milliseconds is what the exchange's clock is taken to show.  A reply
that carries the exchange's time tells the shift, on the assumption that it was written half way
between sending and receiving.

* `ServerClock` — the shift;
* `ServerClock.ofNanos`, `ServerClock.observed` — the shift as given, and as observed;
* `ServerClock.read` — the exchange's time at a local time.
-/

set_option autoImplicit false

namespace SpotGateway

/-- By how many milliseconds the exchange's clock is ahead of the local one. -/
structure ServerClock where
  offsetMillis : Int
  deriving DecidableEq, Repr

namespace ServerClock

/-- No shift. -/
def unshifted : ServerClock := ⟨0⟩

/-- A shift by nanoseconds; what is less than a millisecond is dropped. -/
def ofNanos (nanos : Int) : ServerClock := ⟨nanos.tdiv 1000000⟩

/-- Half way from `sent` to `received`, rounded down. -/
def midpoint (sent received : Timestamp) : Int := sent.nanos + received.since sent / 2

/-- The shift that a reply shows. -/
def observed (server sent received : Timestamp) : ServerClock :=
  ofNanos (server.nanos - midpoint sent received)

/-- The exchange's time at a local time. -/
def read (c : ServerClock) (now : Timestamp) : Checked Timestamp :=
  now.plus (c.offsetMillis * 1000000)

end ServerClock

end SpotGateway
