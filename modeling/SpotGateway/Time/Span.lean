import SpotGateway.Text.Digits

/-!
# Spans of time

Lengths of time that are not negative, in nanoseconds, and how messages show them: in the largest
unit of which there is at least one, with the fraction as far as it goes.

* `Span` — the type;
* `Span.ofSeconds`, `Span.ofMillis`, `Span.ofDifference`;
* `Span.text`.
-/

set_option autoImplicit false

namespace SpotGateway

/-- A length of time. -/
structure Span where
  nanos : Nat
  deriving DecidableEq, Repr

namespace Span

def zero : Span := ⟨0⟩

def ofSeconds (s : Nat) : Span := ⟨s * 1000000000⟩

def ofMillis (ms : Nat) : Span := ⟨ms * 1000000⟩

/-- A difference of instants as a span; nothing if the second one has passed. -/
def ofDifference (nanos : Int) : Span := ⟨nanos.toNat⟩

def seconds (s : Span) : Nat := s.nanos / 1000000000

/-- Nanoseconds beyond the whole seconds. -/
def subseconds (s : Span) : Nat := s.nanos % 1000000000

def millis (s : Span) : Nat := s.nanos / 1000000

/-- `n` units and a fraction of the given number of digits, without the zeros at its end. -/
def inUnits (whole fraction places : Nat) : String :=
  let ds := (Text.padded places fraction).toList
  let kept := (ds.reverse.dropWhile (· == '0')).reverse
  if fraction = 0 then Text.decimal whole else Text.decimal whole ++ "." ++ String.ofList kept

/-- The span in the largest of `s`, `ms`, `µs` and `ns` of which there is at least one. -/
def text (s : Span) : String :=
  let n := s.nanos
  if 1000000000 ≤ n then inUnits (n / 1000000000) (n % 1000000000) 9 ++ "s"
  else if 1000000 ≤ n then inUnits (n / 1000000) (n % 1000000) 6 ++ "ms"
  else if 1000 ≤ n then inUnits (n / 1000) (n % 1000) 3 ++ "µs"
  else Text.decimal n ++ "ns"

instance : ToString Span := ⟨text⟩

end Span

end SpotGateway
