import SpotGateway.Json.Decoder

/-!
# Records

Records are objects with known fields, or arrays that hold the fields in order.  Members are taken
in the order of the document, and the first thing wrong is reported: a field that comes twice, a
value of the wrong form, broken text.  Members with other keys are passed over.  Only then are
fields that did not come looked at, in the order in which the record declares them.

* `RecordField` — name, other names, decoder, and what stands in for it if it does not come;
* `Slot` — the part of a field that taking members needs;
* `record` — a decoder from the fields and a function that puts the record together;
* `Fields.get` — a field's value.
-/

set_option autoImplicit false

namespace SpotGateway.Json

/-- A field of a record. -/
structure RecordField (α : Type) where
  name : String
  aliases : List String
  decoder : Decoder α
  /-- Its value in an object without it. -/
  absent : Option α
  /-- An array may end before it. -/
  trailing : Bool

/-- A field apart from the type of its value. -/
structure Slot where
  name : String
  aliases : List String
  check : Decoder Unit
  trailing : Bool

namespace RecordField

variable {α : Type}

def slot (f : RecordField α) : Slot := ⟨f.name, f.aliases, f.decoder.map fun _ => (), f.trailing⟩

/-- A field that has to come. -/
def required (name : String) (d : Decoder α) (aliases : List String) : RecordField α :=
  ⟨name, aliases, d, none, false⟩

/-- A field with a value to take in its place. -/
def defaulted (name : String) (d : Decoder α) (aliases : List String) (value : α) : RecordField α :=
  ⟨name, aliases, d, some value, true⟩

/-- A field that may be null or not come at all. -/
def optional (name : String) (d : Decoder α) (aliases : List String) : RecordField (Option α) :=
  ⟨name, aliases, d.nullable, some none, true⟩

/-- A field that may be null or not come in an object; an array has to hold it. -/
def nullable (name : String) (d : Decoder α) (aliases : List String) : RecordField (Option α) :=
  ⟨name, aliases, d.nullable, some none, false⟩

end RecordField

/-- The members of a record by the names of their fields. -/
structure Fields where
  room : Nat
  members : List (String × Node)

namespace Fields

/-- The value of a field. -/
def get {α : Type} (fields : Fields) (f : RecordField α) : Except Failure α :=
  match fields.members.find? fun m => m.1 = f.name with
  | some (_, n) => f.decoder fields.room n
  | none =>
    match f.absent with
    | some a => .ok a
    | none => .error (.missingField f.name)

end Fields

namespace Slot

def answersTo (s : Slot) (key : String) : Bool := s.name = key || s.aliases.contains key

/-- Take the members of an object in order. -/
def takeMembers (slots : List Slot) (room : Nat) (taken : List (String × Node)) :
    List (Chars × Node) → Except Failure (List (String × Node))
  | [] => .ok taken
  | (none, _) :: _ => .error .malformed
  | (some key, n) :: rest =>
    match slots.find? fun s => s.answersTo key with
    | some s =>
      if taken.any fun m => m.1 = s.name then .error (.duplicateField s.name)
      else do
        s.check room n
        takeMembers slots room (taken ++ [(s.name, n)]) rest
    | none => if n.isIntact then takeMembers slots room taken rest else .error .malformed

/-- Take the items of an array as fields in order. -/
def takeItems (room : Nat) : List Slot → List Node → Except Failure (List (String × Node))
  | [], [] => .ok []
  | [], _ :: _ => .error .malformed
  | s :: slots, [] => if s.trailing then takeItems room slots [] else .error .malformed
  | s :: slots, n :: rest => do
    s.check room n
    return (s.name, n) :: (← takeItems room slots rest)

end Slot

/-- Decode a record with the given fields. -/
def record {α : Type} (slots : List Slot) (build : Fields → Except Failure α) : Decoder α
  | room, .object members => do
    let room ← Decoder.inside room
    build ⟨room, ← Slot.takeMembers slots room [] members⟩
  | room, .array items => do
    let room ← Decoder.inside room
    build ⟨room, ← Slot.takeItems room slots items⟩
  | _, _ => .error .malformed

end SpotGateway.Json
