import SpotGateway.Json.Number

/-!
# JSON values

* `Value` — a value with the members of every object sorted by key and each key there once;
* `Value.object` of a list of members through `sortMembers` — a later member replaces an earlier one
  of its key;
* `stringText` — a string with the escapes that JSON requires and no others;
* `Value.text` — compact text;
* `Value.mapStrings` — a value with its texts changed;
* `Value.get?`, `Value.string?`, `Value.natural?`, `Value.integer?`, `Value.bool?`, `Value.items?` —
  the content of a value of a certain form.
-/

set_option autoImplicit false

namespace SpotGateway.Json

/-- A JSON value.  Objects are built by `Value.ofMembers`. -/
inductive Value where
  | null
  | bool (b : Bool)
  | number (n : Number)
  | string (s : String)
  | array (items : List Value)
  | object (members : List (String × Value))
  deriving Inhabited, Repr

/-- Put a member into its place among members sorted by key, replacing one of the same key. -/
def insertMember {α : Type} (key : String) (value : α) : List (String × α) → List (String × α)
  | [] => [(key, value)]
  | (k, v) :: rest =>
    if key < k then (key, value) :: (k, v) :: rest
    else if key = k then (key, value) :: rest
    else (k, v) :: insertMember key value rest

/-- Members sorted by key, the last of each key. -/
def sortMembers {α : Type} (members : List (String × α)) : List (String × α) :=
  members.foldl (fun sorted m => insertMember m.1 m.2 sorted) []

/-- An object with the given members; of two with one key the later stays. -/
def Value.ofMembers (members : List (String × Value)) : Value := .object (sortMembers members)

/-- How a character appears in a string. -/
def stringChar (c : Char) : List Char :=
  if c = '"' then ['\\', '"']
  else if c = '\\' then ['\\', '\\']
  else if c = '\x08' then ['\\', 'b']
  else if c = '\x0c' then ['\\', 'f']
  else if c = '\n' then ['\\', 'n']
  else if c = '\r' then ['\\', 'r']
  else if c = '\t' then ['\\', 't']
  else if c < ' ' then ['\\', 'u'] ++ (Text.paddedHexadecimal 4 c.toNat).toList
  else [c]

/-- A string between double quotes. -/
def stringText (s : String) : String :=
  String.ofList ('"' :: s.toList.flatMap stringChar ++ ['"'])

/-- Texts between a pair of brackets, with commas. -/
def bracketed (opening closing : String) (parts : List String) : String :=
  opening ++ String.intercalate "," parts ++ closing

/-- An object of members that are already text. -/
def objectText (members : List (String × String)) : String :=
  bracketed "\x7b" "\x7d" (members.map fun m => stringText m.1 ++ ":" ++ m.2)

/-- A list of items that are already text. -/
def arrayText (items : List String) : String := bracketed "[" "]" items

mutual

/-- Compact text of a value. -/
def Value.text : Value → String
  | .null => "null"
  | .bool b => if b then "true" else "false"
  | .number n => n.text
  | .string s => stringText s
  | .array items => arrayText (Value.texts items)
  | .object members => objectText (Value.memberTexts members)

/-- Texts of values. -/
def Value.texts : List Value → List String
  | [] => []
  | v :: vs => v.text :: Value.texts vs

/-- Members with their values as text. -/
def Value.memberTexts : List (String × Value) → List (String × String)
  | [] => []
  | (k, v) :: ms => (k, v.text) :: Value.memberTexts ms

end

/-- The value of a member. -/
def Value.get? : Value → String → Option Value
  | .object members, key => (members.find? fun m => m.1 = key).map Prod.snd
  | _, _ => none

mutual

/-- The value with every text in it changed; keys stay. -/
def Value.mapStrings (f : String → String) : Value → Value
  | .string s => .string (f s)
  | .array items => .array (Value.mapItems f items)
  | .object members => .object (Value.mapMembers f members)
  | other => other

/-- Items with every text in them changed. -/
def Value.mapItems (f : String → String) : List Value → List Value
  | [] => []
  | v :: vs => v.mapStrings f :: Value.mapItems f vs

/-- Members with every text in their values changed. -/
def Value.mapMembers (f : String → String) : List (String × Value) → List (String × Value)
  | [] => []
  | (k, v) :: ms => (k, v.mapStrings f) :: Value.mapMembers f ms

end

namespace Value

/-- The text of a value that is text. -/
def string? : Value → Option String
  | .string s => some s
  | _ => none

/-- A whole number of 64 bits without sign. -/
def natural? : Value → Option Nat
  | .number n => n.natural?
  | _ => none

/-- A whole number of 64 bits with sign. -/
def integer? : Value → Option Int
  | .number n => n.integer?
  | _ => none

def bool? : Value → Option Bool
  | .bool b => some b
  | _ => none

/-- The items of a list. -/
def items? : Value → Option (List Value)
  | .array items => some items
  | _ => none

end Value

end SpotGateway.Json
