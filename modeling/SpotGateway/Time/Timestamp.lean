import SpotGateway.Fault
import SpotGateway.Power
import SpotGateway.Text.Digits
import SpotGateway.Time.Calendar

/-!
# Instants

Points in time in nanoseconds since the epoch, within the years -262143 to 262142.  An instant read
from text may lie within a leap second; it counts on into the second after it and is written with
`:60`.

* `Timestamp` — the type;
* `Timestamp.plus` — an instant a number of nanoseconds away, a fault outside the range of years;
* `Timestamp.since` — nanoseconds between two instants;
* `Timestamp.text`, `Timestamp.display` — in documents, and in messages.
-/

set_option autoImplicit false

namespace SpotGateway

/-- Nanoseconds since 1970-01-01T00:00:00Z. -/
structure Timestamp where
  nanos : Int
  /-- Within a leap second: `nanos` is counted one second on. -/
  leap : Bool := false
  deriving DecidableEq, Repr

namespace Timestamp

def perSecond : Int := 1000000000

/-- Start of the year -262143. -/
def first : Int := -8334601228800 * perSecond

/-- The last nanosecond of the year 262142. -/
def last : Int := 8210266876800 * perSecond - 1

/-- Whether there is an instant this many nanoseconds after the epoch. -/
def inRange (nanos : Int) : Bool := first ≤ nanos && nanos ≤ last

def epoch : Timestamp := ⟨0, false⟩

instance : LE Timestamp := ⟨fun a b => a.nanos ≤ b.nanos⟩

instance : LT Timestamp := ⟨fun a b => a.nanos < b.nanos⟩

instance (a b : Timestamp) : Decidable (a ≤ b) := inferInstanceAs (Decidable (a.nanos ≤ b.nanos))

instance (a b : Timestamp) : Decidable (a < b) := inferInstanceAs (Decidable (a.nanos < b.nanos))

/-- The instant this many nanoseconds after the epoch. -/
def ofNanos? (nanos : Int) : Option Timestamp :=
  if inRange nanos then some ⟨nanos, false⟩ else none

/-- The instant this many milliseconds after the epoch. -/
def ofMillis? (ms : Int) : Option Timestamp := ofNanos? (ms * 1000000)

/-- The instant `nanos` later. -/
def plus (t : Timestamp) (nanos : Int) : Checked Timestamp :=
  Fault.dateOverflow.orElse (ofNanos? (t.nanos + nanos))

theorem ofNanos?_eq_some_iff {nanos : Int} {t : Timestamp} :
    ofNanos? nanos = some t ↔ inRange nanos = true ∧ t = ⟨nanos, false⟩ := by
  unfold ofNanos?
  split
  · rename_i h
    simp [h, eq_comm]
  · rename_i h
    simp [h]

theorem plus_eq_ok_iff {t u : Timestamp} {nanos : Int} :
    t.plus nanos = .ok u ↔ inRange (t.nanos + nanos) = true ∧ u = ⟨t.nanos + nanos, false⟩ := by
  simp [plus, ofNanos?_eq_some_iff]

/-- Nanoseconds from `earlier` to `t`. -/
def since (t earlier : Timestamp) : Int := t.nanos - earlier.nanos

/-- Whole milliseconds since the epoch, rounded down. -/
def millis (t : Timestamp) : Int := t.nanos / 1000000

/-- Nanoseconds since the epoch, where they fit a signed word of 64 bits. -/
def wordNanos? (t : Timestamp) : Option Int :=
  if -(word63 : Int) ≤ t.nanos ∧ t.nanos < word63 then some t.nanos else none

/-- A year: four digits, or a sign and at least four digits outside 0 to 9999. -/
def yearText (year : Int) : String :=
  if 0 ≤ year ∧ year ≤ 9999 then Text.padded 4 year.toNat
  else (if year < 0 then "-" else "+") ++ Text.padded 4 year.natAbs

/-- A fraction of a second in 0, 3, 6 or 9 digits, the fewest that are exact. -/
def fractionText (nanos : Nat) : String :=
  if nanos = 0 then ""
  else if nanos % 1000000 = 0 then "." ++ Text.padded 3 (nanos / 1000000)
  else if nanos % 1000 = 0 then "." ++ Text.padded 6 (nanos / 1000)
  else "." ++ Text.padded 9 nanos

/-- Date and time with the given separator between them. -/
def civilText (t : Timestamp) (separator : String) : String :=
  let n := if t.leap then t.nanos - perSecond else t.nanos
  let seconds := n / perSecond
  let date := Date.ofDays (seconds / 86400)
  let s := (seconds % 86400).toNat
  let second := if t.leap then s % 60 + 1 else s % 60
  yearText date.year ++ "-" ++ Text.padded 2 date.month ++ "-" ++ Text.padded 2 date.day ++
    separator ++ Text.padded 2 (s / 3600) ++ ":" ++ Text.padded 2 (s / 60 % 60) ++ ":" ++
    Text.padded 2 second ++ fractionText (n % perSecond).toNat

/-- As documents carry it. -/
def text (t : Timestamp) : String := t.civilText "T" ++ "Z"

/-- As messages show it. -/
def display (t : Timestamp) : String := t.civilText " " ++ " UTC"

end Timestamp

end SpotGateway
