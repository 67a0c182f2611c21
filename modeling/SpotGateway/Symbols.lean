import SpotGateway.Error
import SpotGateway.Market.Pair

/-!
# Symbols

The exchange has names of its own for pairs.  A symbol map translates both ways; it is made as a
whole from what the exchange lists, and only if no pair and no symbol is listed twice.

* `SymbolEntry` — a symbol as the exchange lists it;
* `SymbolMap.build` — the map of a list of entries;
* `SymbolMap.symbolOf`, `SymbolMap.pairOf` — from one name to the other;
* `SymbolTable` — the map in force, with `SymbolTable.refresh` and `SymbolTable.isTradable`.
-/

set_option autoImplicit false

namespace SpotGateway

/-- What to make of a symbol whose status the exchange does not report. -/
inductive MissingStatusPolicy where
  | assumeTrading
  | assumeHalted
  deriving DecidableEq, Repr

/-- A symbol as the exchange lists it. -/
structure SymbolEntry where
  symbol : String
  base : String
  quote : String
  status : Option String
  deriving DecidableEq, Repr

def SymbolEntry.pair (e : SymbolEntry) : String := Pair.combine e.base e.quote

/-- A pair with its symbol. -/
structure Listing where
  pair : String
  symbol : String
  status : Option String
  deriving DecidableEq, Repr

/-- Pairs and their symbols, each pair and each symbol once. -/
structure SymbolMap where
  listings : List Listing
  deriving DecidableEq, Repr

namespace SymbolMap

def empty : SymbolMap := ⟨[]⟩

def ofPair? (m : SymbolMap) (pair : String) : Option Listing :=
  m.listings.find? fun l => l.pair = pair

def ofSymbol? (m : SymbolMap) (symbol : String) : Option Listing :=
  m.listings.find? fun l => l.symbol = symbol

/-- The map with one more entry, if neither its pair nor its symbol is taken. -/
def add (m : SymbolMap) (e : SymbolEntry) : Except GatewayError SymbolMap :=
  match m.ofPair? e.pair, m.ofSymbol? e.symbol with
  | some taken, _ => .error (.symbolConflict e.pair taken.symbol e.symbol)
  | none, some taken => .error (.symbolConflict e.symbol taken.pair e.pair)
  | none, none => .ok ⟨m.listings ++ [⟨e.pair, e.symbol, e.status⟩]⟩

/-- The map of all entries. -/
def build (entries : List SymbolEntry) : Except GatewayError SymbolMap :=
  entries.foldlM add empty

/-- The symbol of a pair. -/
def symbolOf (m : SymbolMap) (pair : String) : Except GatewayError String :=
  match m.ofPair? pair with
  | some l => .ok l.symbol
  | none => .error (.unknownPair pair)

/-- The pair of a symbol. -/
def pairOf (m : SymbolMap) (symbol : String) : Except GatewayError String :=
  match m.ofSymbol? symbol with
  | some l => .ok l.pair
  | none => .error (.unknownSymbol symbol)

def size (m : SymbolMap) : Nat := m.listings.length

def isEmpty (m : SymbolMap) : Bool := m.listings.isEmpty

/-- All pairs, sorted. -/
def pairs (m : SymbolMap) : List String :=
  (m.listings.map Listing.pair).mergeSort fun a b => decide (a ≤ b)

end SymbolMap

/-- The map in force. -/
structure SymbolTable where
  current : SymbolMap
  missingStatus : MissingStatusPolicy
  deriving DecidableEq, Repr

namespace SymbolTable

/-- A table that knows no symbols. -/
def create (missingStatus : MissingStatusPolicy) : SymbolTable := ⟨.empty, missingStatus⟩

/-- Put the map of the entries in force.  If they contradict each other the present map stays. -/
def refresh (t : SymbolTable) (entries : List SymbolEntry) :
    SymbolTable × Except GatewayError Unit :=
  match SymbolMap.build entries with
  | .ok m => ({ t with current := m }, .ok ())
  | .error e => (t, .error e)

/-- The pair is known and open for trading. -/
def isTradable (t : SymbolTable) (pair : String) : Bool :=
  match t.current.ofPair? pair with
  | none => false
  | some ⟨_, _, some status⟩ => status = Exchange.tradingStatus
  | some ⟨_, _, none⟩ => t.missingStatus = .assumeTrading

end SymbolTable

end SpotGateway
