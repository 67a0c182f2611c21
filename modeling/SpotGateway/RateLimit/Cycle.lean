/-!
# Cycles in a finite graph

Depth-first search for a way back.  Nodes are numbers below some bound, and `next` gives the nodes
that a node points to.  The search keeps a mark for each node and the path that it is on; it comes
upon a cycle where a node points to one that is still under way.

* `Mark`, `Search` — what is known of each node, and the path;
* `Halt` — why a search stops before it is through;
* `follow`, `explore`, `search` — search along one pointer, from one node, and from each node in
  turn;
* `closing` — the nodes of a cycle;
* `findCycle?` — a cycle, if there is one, as the nodes along it from its first to itself again.
-/

set_option autoImplicit false

namespace SpotGateway.Cycle

/-- What is known of a node. -/
inductive Mark where
  | unseen
  | underWay
  /-- No way back from the node. -/
  | done
  deriving DecidableEq, Repr

/-- How far a search has come. -/
structure Search where
  /-- In the order of the nodes. -/
  marks : List Mark
  /-- The nodes under way, from where the search started to where it is. -/
  path : List Nat
  deriving DecidableEq, Repr

/-- Why a search stops before it is through. -/
inductive Halt where
  /-- The last node of the path points back to `node`. -/
  | wayBack (path : List Nat) (node : Nat)
  /-- More nodes follow one another on a path than allowed. -/
  | tooDeep
  deriving DecidableEq, Repr

namespace Search

def fresh (size : Nat) : Search := ⟨List.replicate size .unseen, []⟩

/-- What is known of a node; numbers that are not nodes lead nowhere. -/
def mark (s : Search) (node : Nat) : Mark := s.marks.getD node .done

def enter (s : Search) (node : Nat) : Search := ⟨s.marks.set node .underWay, s.path ++ [node]⟩

def leave (s : Search) (node : Nat) : Search := ⟨s.marks.set node .done, s.path.dropLast⟩

end Search

/-- Where the end of the path points to `n`: a way back, a node to `visit`, or nothing new. -/
def follow (visit : Search → Nat → Except Halt Search) (s : Search) (n : Nat) :
    Except Halt Search :=
  match s.mark n with
  | .underWay => .error (.wayBack s.path n)
  | .unseen => visit s n
  | .done => .ok s

/-- Search on from `node`.  `depth` bounds the nodes that can follow one another on a path. -/
def explore (next : Nat → List Nat) : Nat → Search → Nat → Except Halt Search
  | 0, _, _ => .error .tooDeep
  | depth + 1, s, node => do
    let s ← (next node).foldlM (follow (explore next depth)) (s.enter node)
    return s.leave node

/-- Search from each node below `size` in turn. -/
def search (next : Nat → List Nat) (depth size : Nat) : Except Halt Search :=
  (List.range size).foldlM (fun s n =>
    if s.mark n = .unseen then explore next depth s n else .ok s) (.fresh size)

/-- The cycle that is closed where the end of `path` points back to `node`. -/
def closing (path : List Nat) (node : Nat) : List Nat :=
  path.drop ((path.findIdx? (· = node)).getD 0) ++ [node]

/-- The first cycle that the search comes to. -/
def findCycle? (size : Nat) (next : Nat → List Nat) : Option (List Nat) :=
  match search next size size with
  | .error (.wayBack path node) => some (closing path node)
  | _ => none

end SpotGateway.Cycle
