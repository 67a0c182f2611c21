import SpotGateway.Time.Span

/-!
# Rate limit tiers

A tier admits so many units per window of time.  A tier may be linked to others, which are then
charged along with it.

* `Link` — another tier charged along, and by how much;
* `Tier` — a tier as it is declared;
* `Tier.perSecond`, `Tier.perMinute`, `Tier.linkedTo` — ways to declare one.
-/

set_option autoImplicit false

namespace SpotGateway

/-- Units charged to another tier along with one's own. -/
structure Link where
  tier : String
  weight : Nat
  deriving DecidableEq, Repr

/-- A declared tier. -/
structure Tier where
  id : String
  /-- Units admitted per window. -/
  capacity : Nat
  window : Span
  links : List Link
  deriving DecidableEq, Repr

namespace Tier

def perSecond (id : String) (capacity : Nat) : Tier := ⟨id, capacity, .ofSeconds 1, []⟩

def perMinute (id : String) (capacity : Nat) : Tier := ⟨id, capacity, .ofSeconds 60, []⟩

/-- The tier with one more link. -/
def linkedTo (t : Tier) (tier : String) (weight : Nat) : Tier :=
  { t with links := t.links ++ [⟨tier, weight⟩] }

end Tier

end SpotGateway
