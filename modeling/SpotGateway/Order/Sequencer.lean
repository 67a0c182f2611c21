import SpotGateway.Time.Timestamp

/-!
# Sequences

Places in the one order in which observations of orders are made.  A place is the local time in
nanoseconds, or the place after the last one if the clock has not moved past it.

* `Sequencer` — the last place given;
* `Sequencer.next` — the next one, which is after the last one (`last_lt_next`).
-/

set_option autoImplicit false

namespace SpotGateway

/-- The last place given. -/
structure Sequencer where
  last : Nat
  deriving DecidableEq, Repr

namespace Sequencer

def initial : Sequencer := ⟨0⟩

/-- The nanoseconds of a time; zero before the epoch and where a word of 64 bits does not hold
them. -/
def reading (now : Timestamp) : Nat :=
  match now.wordNanos? with
  | some nanos => nanos.toNat
  | none => 0

/-- The place of something that happens now. -/
def next (s : Sequencer) (now : Timestamp) : Sequencer × Nat :=
  let place := max (reading now) (s.last + 1)
  (⟨place⟩, place)

theorem last_next (s : Sequencer) (now : Timestamp) : (s.next now).1.last = (s.next now).2 := rfl

theorem last_lt_next (s : Sequencer) (now : Timestamp) : s.last < (s.next now).2 :=
  Nat.le_max_right _ _

theorem reading_le_next (s : Sequencer) (now : Timestamp) : reading now ≤ (s.next now).2 :=
  Nat.le_max_left _ _

end Sequencer

end SpotGateway
