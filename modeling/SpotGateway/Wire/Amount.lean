import SpotGateway.Decimal.Reader
import SpotGateway.Json.Record
import SpotGateway.Text.Blank

/-!
# Amounts in documents

The exchange writes amounts as numbers in one place and as text in another.  Both are read, without
going through floating point as far as numbers keep their digits.

* `Amount.ofValue` — the amount of a value; none if it is null or blank;
* `Amount.optional`, `Amount.required` — decoders;
* `Amount.exact` — the stricter form that the gateway's own documents have.
-/

set_option autoImplicit false

namespace SpotGateway.Amount

open Json

/-- The amount that a text stands for.  Scientific form gets a second chance by itself. -/
def ofText (text : String) : Except Failure (Option Decimal) :=
  match Decimal.ofText? text <|> Decimal.ofScientific? text.toList with
  | some d => .ok (some d)
  | none => .error (.badDecimal text)

/-- The amount of a value; none if it is null or blank. -/
def ofValue : Value → Except Failure (Option Decimal)
  | .null => .ok none
  | .string s =>
    match Text.trim s.toList with
    | [] => .ok none
    | trimmed => ofText (String.ofList trimmed)
  | .number n => ofText n.text
  | other => .error (.notDecimal other.text)

/-- An amount, or null or blank text. -/
def optional : Decoder (Option Decimal) := fun room n => do
  ofValue (← Decoder.value room n)

/-- An amount. -/
def required : Decoder Decimal := fun room n => do
  match ← optional room n with
  | some d => return d
  | none => .error .noDecimal

/-- The amount of a number: of the whole number, or of the shortest digits of the double. -/
def ofNumber? : Number → Option Decimal
  | .natural n => Decimal.ofInt? n
  | .negative i => Decimal.ofInt? i
  | .float x => Decimal.ofText? (x.text .plain)

/-- An amount as text without blanks, or as a number. -/
def exact : Decoder Decimal
  | _, .string s => Decoder.ofOption (s.bind Decimal.ofText?)
  | _, .number l => Decoder.ofOption (l.number?.bind ofNumber?)
  | _, _ => .error .malformed

end SpotGateway.Amount
