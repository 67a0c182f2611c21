/-!
# Powers

Powers of two bound the words that numbers are kept in; powers of ten move the decimal point.

* `twoPow`, `tenPow`;
* `word32`, `word63`, `word64` — the smallest numbers that words of 32, 63 and 64 bits do not
  hold.
-/

set_option autoImplicit false

namespace SpotGateway

/-- The `k`-th power of two. -/
def twoPow (k : Nat) : Nat := Nat.pow 2 k

/-- The `k`-th power of ten. -/
def tenPow (k : Nat) : Nat := Nat.pow 10 k

def word32 : Nat := twoPow 32

def word63 : Nat := twoPow 63

def word64 : Nat := twoPow 64

theorem twoPow_succ (k : Nat) : twoPow (k + 1) = twoPow k * 2 := rfl

theorem tenPow_succ (k : Nat) : tenPow (k + 1) = tenPow k * 10 := rfl

theorem twoPow_pos (k : Nat) : 0 < twoPow k := Nat.pow_pos (by decide)

theorem tenPow_pos (k : Nat) : 0 < tenPow k := Nat.pow_pos (by decide)

theorem tenPow_add (j k : Nat) : tenPow (j + k) = tenPow j * tenPow k := Nat.pow_add 10 j k

end SpotGateway
