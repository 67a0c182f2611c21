import SpotGateway.Order.ClientId
import SpotGateway.Power
import SpotGateway.Symbols
import SpotGateway.Text.Blank

/-!
# Configuration

Settings of a gateway session.  Credentials are not among them.

* `SigningScheme` — how requests are authenticated;
* `Config` — the settings, with `Config.default`;
* `Config.validate` — the first thing that a session cannot work with;
* `Config.decoder`, `Config.text` — settings as a document.
-/

set_option autoImplicit false

namespace SpotGateway

/-- How requests are authenticated. -/
inductive SigningScheme where
  /-- Keys and a bearer token in headers. -/
  | bearerToken
  /-- And a signature over the request and the time. -/
  | hmacSha256
  deriving DecidableEq, Repr

def SigningScheme.text : SigningScheme → String
  | .bearerToken => "bearer_token"
  | .hmacSha256 => "hmac_sha256"

def SigningScheme.ofText? (s : String) : Option SigningScheme :=
  [bearerToken, hmacSha256].find? fun scheme => scheme.text = s

def MissingStatusPolicy.text : MissingStatusPolicy → String
  | .assumeTrading => "assume_trading"
  | .assumeHalted => "assume_halted"

def MissingStatusPolicy.ofText? (s : String) : Option MissingStatusPolicy :=
  [assumeTrading, assumeHalted].find? fun policy => policy.text = s

/-- Settings of a session. -/
structure Config where
  restUrl : String
  wssUrl : String
  /-- Time for a call that does not bring its own deadline. -/
  timeoutMillis : Nat
  missingStatus : MissingStatusPolicy
  signing : SigningScheme
  /-- What client order ids start with. -/
  idHead : String
  deriving DecidableEq, Repr

namespace Config

def default : Config :=
  { restUrl := Exchange.restUrl, wssUrl := Exchange.wssUrl, timeoutMillis := 10000,
    missingStatus := .assumeTrading, signing := .bearerToken, idHead := Exchange.defaultIdHead }

def timeout (c : Config) : Span := .ofMillis c.timeoutMillis

/-- With the time for a call in whole milliseconds, counted modulo a word of 64 bits. -/
def withTimeout (c : Config) (timeout : Span) : Config :=
  { c with timeoutMillis := timeout.millis % word64 }

/-- Besides its head, a client order id has at least the letter of the side and eight digits. -/
def idTailLength : Nat := 9

/-- Whether client order ids can start with this. -/
def isIdHead (head : String) : Bool :=
  head.utf8ByteSize + idTailLength ≤ Exchange.maxIdLength && head.toList.all ClientId.isAllowed

/-- The first thing that a session cannot work with. -/
def validate (c : Config) : Except GatewayError Unit :=
  if Text.trim c.restUrl.toList = [] then .error (.configuration .restUrlEmpty)
  else if c.timeoutMillis = 0 then .error (.configuration .timeoutZero)
  else if isIdHead c.idHead then .ok ()
  else .error (.configuration (.idHead c.idHead))

open Json

def restUrlField : RecordField String := .defaulted "rest_url" Decoder.text [] default.restUrl

def wssUrlField : RecordField String := .defaulted "wss_url" Decoder.text [] default.wssUrl

def timeoutField : RecordField Nat :=
  .defaulted "request_timeout_ms" (Decoder.natural word64) [] default.timeoutMillis

def missingStatusField : RecordField MissingStatusPolicy :=
  .defaulted "missing_status_policy" (Decoder.name MissingStatusPolicy.ofText?) []
    default.missingStatus

def signingField : RecordField SigningScheme :=
  .defaulted "signing" (Decoder.name SigningScheme.ofText?) [] default.signing

def idHeadField : RecordField String :=
  .defaulted "client_order_id_prefix" Decoder.text [] default.idHead

/-- Settings from a document; what it leaves out is as by default. -/
def decoder : Decoder Config :=
  record [restUrlField.slot, wssUrlField.slot, timeoutField.slot, missingStatusField.slot,
    signingField.slot, idHeadField.slot] fun fields => do
    return {
      restUrl := ← fields.get restUrlField
      wssUrl := ← fields.get wssUrlField
      timeoutMillis := ← fields.get timeoutField
      missingStatus := ← fields.get missingStatusField
      signing := ← fields.get signingField
      idHead := ← fields.get idHeadField }

/-- The settings as a document. -/
def text (c : Config) : String :=
  objectText [
    ("rest_url", stringText c.restUrl),
    ("wss_url", stringText c.wssUrl),
    ("request_timeout_ms", Text.decimal c.timeoutMillis),
    ("missing_status_policy", stringText c.missingStatus.text),
    ("signing", stringText c.signing.text),
    ("client_order_id_prefix", stringText c.idHead)]

end Config

end SpotGateway
