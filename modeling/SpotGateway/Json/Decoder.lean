import SpotGateway.Json.Document
import SpotGateway.Text.Quoted
import SpotGateway.Time.Rfc3339

/-!
# Decoding documents

A decoder turns part of a document into a value of some type or names what is wrong first, in the
order of the document.

* `Failure`, `Failure.message` — what can be wrong, and its wording;
* `Decoder` — with the decoders for texts, numbers, booleans, instants, lists and values;
* `Decoder.nullable`, `Decoder.name` — optional values, and constants given by name;
* `decode` — a whole text.
-/

set_option autoImplicit false

namespace SpotGateway.Json

/-- Why a document does not decode. -/
inductive Failure where
  /-- The text is not JSON, or a part of it has the wrong form. -/
  | malformed
  | missingField (name : String)
  | duplicateField (name : String)
  /-- A value that is neither number nor text stands where an amount is due. -/
  | notDecimal (shown : String)
  /-- An amount is null or blank. -/
  | noDecimal
  | badDecimal (text : String)
  /-- A price listing is neither a single price nor a list of them. -/
  | noListing
  deriving DecidableEq, Repr

/-- How a failure is worded. -/
def Failure.message : Failure → String
  | .malformed => "json"
  | .missingField name => "missing field `" ++ name ++ "`"
  | .duplicateField name => "duplicate field `" ++ name ++ "`"
  | .notDecimal shown => "expected decimal, got " ++ shown
  | .noDecimal => "missing decimal value"
  | .badDecimal text => "invalid decimal " ++ Text.quoted text
  | .noListing => "data did not match any variant of untagged enum TickerPricePayload"

/-- Decode a part of a document around which `room` more arrays and objects may not stand. -/
abbrev Decoder (α : Type) := (room : Nat) → Node → Except Failure α

/-- Documents are decoded with room for 127 arrays and objects around any part that is kept. -/
def fullRoom : Nat := 128

namespace Decoder

variable {α β : Type}

/-- The value if there is one, and otherwise wrong form. -/
def ofOption : Option α → Except Failure α
  | some a => .ok a
  | none => .error .malformed

def map (f : α → β) (d : Decoder α) : Decoder β := fun room n => (d room n).map f

/-- Room inside an array or object. -/
def inside (room : Nat) : Except Failure Nat :=
  if 2 ≤ room then .ok (room - 1) else .error .malformed

def text : Decoder String
  | _, .string s => ofOption s
  | _, _ => .error .malformed

def bool : Decoder Bool
  | _, .bool b => .ok b
  | _, _ => .error .malformed

/-- A whole number below `limit`. -/
def natural (limit : Nat) : Decoder Nat
  | _, .number l => ofOption (l.natural? limit)
  | _, _ => .error .malformed

/-- A whole number of 64 bits with sign. -/
def integer : Decoder Int
  | _, .number l => ofOption l.integer?
  | _, _ => .error .malformed

/-- An instant as text. -/
def timestamp : Decoder Timestamp := fun room n => do
  ofOption (Timestamp.ofText? (← text room n))

/-- Any value. -/
def value : Decoder Value := fun room n => ofOption (n.value? room)

/-- Null or a value. -/
def nullable (d : Decoder α) : Decoder (Option α)
  | _, .null => .ok none
  | room, n => (d room n).map some

/-- A list, item after item. -/
def list (d : Decoder α) : Decoder (List α)
  | room, .array items => do
    let room ← inside room
    items.mapM (d room)
  | _, _ => .error .malformed

/-- A constant by its name, as text or as the only key of an object whose value is null. -/
def name (named? : String → Option α) : Decoder α
  | _, .string s => ofOption (s.bind named?)
  | room, .object [(some key, .null)] => do
    let _ ← inside room
    ofOption (named? key)
  | _, _ => .error .malformed

end Decoder

/-- Decode a whole text: its value first, then that nothing follows. -/
def decode {α : Type} (d : Decoder α) (text : String) : Except Failure α := do
  let (n, clean) := Document.read text
  let a ← d fullRoom n
  if clean then .ok a else .error .malformed

end SpotGateway.Json
