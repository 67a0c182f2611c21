import SpotGateway.Power
import SpotGateway.RateLimit.Cycle
import SpotGateway.RateLimit.Tier

/-!
# Tables of tiers

A table holds declared tiers that fit together: no two of one name, none that could never admit
anything, and links that lead to tiers of the table, can be met, and never lead in a circle.  Each
tier is resolved into the charges that one unit of it makes.

* `TableError`, `TableError.message` — what can be wrong with the declarations;
* `Charge`, `Quota` — a resolved tier;
* `Table.build` — the table of declared tiers, or the first thing wrong with them;
* `Table.position?`, `Table.charges?` — lookup.
-/

set_option autoImplicit false

namespace SpotGateway

/-- What is wrong with declared tiers. -/
inductive TableError where
  | duplicateTier (id : String)
  | zeroCapacity (id : String)
  | zeroWindow (id : String)
  | windowOutOfRange (id : String)
  | unknownLinkedTier (id linked : String)
  | zeroWeight (id linked : String)
  | weightExceedsCapacity (id linked : String) (weight capacity : Nat)
  | cyclicLinkage (ids : List String)
  deriving DecidableEq, Repr

def TableError.message : TableError → String
  | .duplicateTier id => s!"Duplicate tier: {id}"
  | .zeroCapacity id => s!"Tier {id} has zero capacity"
  | .zeroWindow id => s!"Tier {id} has an empty window"
  | .windowOutOfRange id => s!"Tier {id} window is out of range"
  | .unknownLinkedTier id linked => s!"Tier {id} links to unknown tier {linked}"
  | .zeroWeight id linked => s!"Tier {id} links to {linked} with zero weight"
  | .weightExceedsCapacity id linked weight capacity =>
    s!"Tier {id} links to {linked} with weight {weight} above its capacity {capacity}"
  | .cyclicLinkage ids => "Cyclic tier linkage: " ++ String.intercalate " -> " ids

/-- Units that one reservation takes from the tier at a position of the table. -/
structure Charge where
  position : Nat
  units : Nat
  deriving DecidableEq, Repr

/-- A resolved tier. -/
structure Quota where
  id : String
  capacity : Nat
  window : Span
  /-- What a reservation of the tier takes, from itself and others, in the order of the table. -/
  charges : List Charge
  deriving DecidableEq, Repr

/-- Tiers that fit together. -/
structure Table where
  quotas : List Quota
  deriving DecidableEq, Repr

namespace Table

/-- Units are counted modulo this. -/
def unitLimit : Nat := word32

/-- Windows are not longer than this. -/
def longestWindow : Span := .ofMillis 9223372036854775807

/-- The first thing wrong with a tier by itself, after the tiers `before` it. -/
def checkTier (before : List Tier) (t : Tier) : Except TableError Unit :=
  if before.any fun b => b.id = t.id then .error (.duplicateTier t.id)
  else if t.capacity = 0 then .error (.zeroCapacity t.id)
  else if t.window.nanos = 0 then .error (.zeroWindow t.id)
  else .ok ()

/-- The first thing wrong with tiers by themselves. -/
def checkTiers (before : List Tier) : List Tier → Except TableError Unit
  | [] => .ok ()
  | t :: rest => do
    checkTier before t
    checkTiers (before ++ [t]) rest

/-- What is wrong with a link of a tier. -/
def checkLink (tiers : List Tier) (t : Tier) (link : Link) : Except TableError Unit :=
  match tiers.find? fun target => target.id = link.tier with
  | none => .error (.unknownLinkedTier t.id link.tier)
  | some target =>
    if link.weight = 0 then .error (.zeroWeight t.id link.tier)
    else if target.capacity < link.weight then
      .error (.weightExceedsCapacity t.id link.tier link.weight target.capacity)
    else .ok ()

/-- The position of the tier of that name. -/
def positionIn? (tiers : List Tier) (id : String) : Option Nat :=
  tiers.findIdx? fun t => t.id = id

/-- The positions that the tier at a position is linked to. -/
def linkedFrom (tiers : List Tier) (position : Nat) : List Nat :=
  match tiers[position]? with
  | some t => t.links.filterMap fun link => positionIn? tiers link.tier
  | none => []

/-- The names of the tiers at positions. -/
def namesAt (tiers : List Tier) (positions : List Nat) : List String :=
  positions.filterMap fun p => (tiers[p]?).map Tier.id

/-- Links never lead in a circle. -/
def checkCycles (tiers : List Tier) : Except TableError Unit :=
  match Cycle.findCycle? tiers.length (linkedFrom tiers) with
  | some cycle => .error (.cyclicLinkage (namesAt tiers cycle))
  | none => .ok ()

/-- The charges with `weight` units more from the tier at `target`. -/
def addUnits (charges : List Charge) (target weight : Nat) : List Charge :=
  match charges with
  | [] => [⟨target, weight % unitLimit⟩]
  | c :: rest =>
    if c.position = target then ⟨target, (c.units + weight) % unitLimit⟩ :: rest
    else c :: addUnits rest target weight

/-- The charges with the weight of a link more. -/
def addLink (tiers : List Tier) (charges : List Charge) (link : Link) : List Charge :=
  match positionIn? tiers link.tier with
  | some target => addUnits charges target link.weight
  | none => charges

/-- What a reservation of the tier at `position` takes, tier by tier: one unit of its own, and the
weights of its links. -/
def unitsTaken (tiers : List Tier) (position : Nat) (t : Tier) : List Charge :=
  t.links.foldl (addLink tiers) [⟨position, 1⟩]

/-- A charge in its place among charges in the order of the table. -/
def insertCharge (c : Charge) : List Charge → List Charge
  | [] => [c]
  | d :: rest => if c.position ≤ d.position then c :: d :: rest else d :: insertCharge c rest

/-- Charges in the order of the table. -/
def inOrder (charges : List Charge) : List Charge := charges.foldr insertCharge []

/-- The tier at a position with its charges. -/
def quotaOf (tiers : List Tier) (position : Nat) (t : Tier) : Quota :=
  ⟨t.id, t.capacity, t.window, inOrder (unitsTaken tiers position t)⟩

/-- The tier at a position with its charges, if its window is not too long. -/
def resolve (tiers : List Tier) (position : Nat) (t : Tier) : Except TableError Quota :=
  if longestWindow.nanos < t.window.nanos then .error (.windowOutOfRange t.id)
  else .ok (quotaOf tiers position t)

/-- The table of declared tiers, or the first thing wrong with them: the tiers by themselves, then
their links, then circles of links, then windows that are too long. -/
def build (tiers : List Tier) : Except TableError Table := do
  checkTiers [] tiers
  tiers.forM fun t => t.links.forM (checkLink tiers t)
  checkCycles tiers
  return ⟨← tiers.zipIdx.mapM fun (t, position) => resolve tiers position t⟩

def size (table : Table) : Nat := table.quotas.length

def isEmpty (table : Table) : Bool := table.quotas.isEmpty

/-- The position of the tier of that name. -/
def position? (table : Table) (id : String) : Option Nat :=
  table.quotas.findIdx? fun q => q.id = id

def quota? (table : Table) (id : String) : Option Quota := table.quotas.find? fun q => q.id = id

def contains (table : Table) (id : String) : Bool := (table.quota? id).isSome

def ids (table : Table) : List String := table.quotas.map Quota.id

/-- The units that a reservation takes, by the names of the tiers it takes them from. -/
def charges? (table : Table) (id : String) : Option (List (String × Nat)) :=
  (table.quota? id).map fun q =>
    q.charges.filterMap fun c => (table.quotas[c.position]?).map fun target => (target.id, c.units)

end Table

end SpotGateway
