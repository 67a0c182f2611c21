import SpotGateway.Json.Record
import SpotGateway.Power
import SpotGateway.Time.Span

/-!
# Published limits

What the exchange says about its own rate limits.

* `PublishedLimit`, `RateLimits` — limits that hold for everything;
* `EndpointLimit`, `EndpointLimits` — limits of single operations, with `EndpointLimit.path`.
-/

set_option autoImplicit false

namespace SpotGateway

open Json

/-- So many requests per so many seconds. -/
structure PublishedLimit where
  limit : Nat
  seconds : Nat
  description : Option String
  deriving DecidableEq, Repr

namespace PublishedLimit

def limitField : RecordField Nat := .required "limit" (Decoder.natural word32) []
def secondsField : RecordField Nat := .required "ttl" (Decoder.natural word64) []
def descriptionField : RecordField (Option String) := .optional "description" Decoder.text []

def decoder : Decoder PublishedLimit :=
  record [limitField.slot, secondsField.slot, descriptionField.slot] fun fields => do
    return ⟨← fields.get limitField, ← fields.get secondsField, ← fields.get descriptionField⟩

def window (l : PublishedLimit) : Span := .ofSeconds l.seconds

end PublishedLimit

/-- Limits that hold for everything. -/
structure GlobalLimits where
  ipBased : PublishedLimit
  userBased : PublishedLimit
  burst : PublishedLimit
  deriving DecidableEq, Repr

namespace GlobalLimits

def ipBasedField : RecordField PublishedLimit := .required "ipBased" PublishedLimit.decoder []
def userBasedField : RecordField PublishedLimit := .required "userBased" PublishedLimit.decoder []
def burstField : RecordField PublishedLimit := .required "burst" PublishedLimit.decoder []

def decoder : Decoder GlobalLimits :=
  record [ipBasedField.slot, userBasedField.slot, burstField.slot] fun fields => do
    return ⟨← fields.get ipBasedField, ← fields.get userBasedField, ← fields.get burstField⟩

end GlobalLimits

/-- The limits that hold for everything, as they apply to whoever asks. -/
structure RateLimits where
  ip : Option String
  userId : Option String
  global : GlobalLimits
  timestamp : Option Timestamp
  deriving DecidableEq, Repr

namespace RateLimits

def ipField : RecordField (Option String) := .optional "ip" Decoder.text []
def userIdField : RecordField (Option String) := .optional "userId" Decoder.text []
def globalField : RecordField GlobalLimits := .required "globalLimits" GlobalLimits.decoder []
def timestampField : RecordField (Option Timestamp) := .optional "timestamp" Decoder.timestamp []

def decoder : Decoder RateLimits :=
  record [ipField.slot, userIdField.slot, globalField.slot, timestampField.slot] fun fields => do
    return ⟨← fields.get ipField, ← fields.get userIdField, ← fields.get globalField,
      ← fields.get timestampField⟩

end RateLimits

/-- The limit of one operation. -/
structure EndpointLimit where
  /-- Method, a space, and the path with a slash in front. -/
  endpoint : String
  method : String
  limit : Nat
  seconds : Nat
  weight : Nat
  description : Option String
  deriving DecidableEq, Repr

namespace EndpointLimit

def endpointField : RecordField String := .required "endpoint" Decoder.text []
def methodField : RecordField String := .required "method" Decoder.text []
def limitField : RecordField Nat := .required "limit" (Decoder.natural word32) []
def secondsField : RecordField Nat := .required "ttl" (Decoder.natural word64) []
def weightField : RecordField Nat := .defaulted "weight" (Decoder.natural word32) [] 1
def descriptionField : RecordField (Option String) := .optional "description" Decoder.text []

def decoder : Decoder EndpointLimit :=
  record [endpointField.slot, methodField.slot, limitField.slot, secondsField.slot,
    weightField.slot, descriptionField.slot] fun fields => do
    return {
      endpoint := ← fields.get endpointField
      method := ← fields.get methodField
      limit := ← fields.get limitField
      seconds := ← fields.get secondsField
      weight := ← fields.get weightField
      description := ← fields.get descriptionField }

def window (l : EndpointLimit) : Span := .ofSeconds l.seconds

/-- The path without method and without slashes in front. -/
def path (l : EndpointLimit) : String :=
  let cs := l.endpoint.toList
  let path := match cs.dropWhile (· ≠ ' ') with
    | [] => cs
    | _ :: rest => rest
  String.ofList (path.dropWhile (· == '/'))

end EndpointLimit

/-- The limits of single operations. -/
structure EndpointLimits where
  endpoints : List EndpointLimit
  timestamp : Option Timestamp
  deriving DecidableEq, Repr

namespace EndpointLimits

def endpointsField : RecordField (List EndpointLimit) :=
  .defaulted "endpoints" (Decoder.list EndpointLimit.decoder) [] []
def timestampField : RecordField (Option Timestamp) := .optional "timestamp" Decoder.timestamp []

def decoder : Decoder EndpointLimits :=
  record [endpointsField.slot, timestampField.slot] fun fields => do
    return ⟨← fields.get endpointsField, ← fields.get timestampField⟩

end EndpointLimits

end SpotGateway
