import SpotGateway.Config
import SpotGateway.Crypto.Hmac
import SpotGateway.Fault
import SpotGateway.Http.Request

/-!
# Authentication

Requests that need it carry the key, the secret and a bearer token in headers, and under the signing
scheme also the time and a signature over what is sent.

* `Credentials` — key, secret and token, with `Credentials.display`, which shows no secret;
* `Authenticator.headers` — the headers that every request gets;
* `Authenticator.payload`, `Authenticator.sign` — what is signed, and the signature;
* `Authenticator.decorate` — a request with its headers.
-/

set_option autoImplicit false

namespace SpotGateway

/-- What the exchange knows its user by. -/
structure Credentials where
  key : String
  secret : String
  /-- Stands in for the key as bearer token. -/
  token : Option String
  deriving DecidableEq

namespace Credentials

def bearer (c : Credentials) : String := c.token.getD c.key

/-- How logs show credentials: the key alone. -/
def display (c : Credentials) : String :=
  let token := match c.token with
    | some _ => "Some(\"[REDACTED]\")"
    | none => "None"
  "ApiCredentials \x7b api_key: " ++ Text.quoted c.key ++
    ", api_secret: \"[REDACTED]\", bearer_token: " ++ token ++ " \x7d"

end Credentials

/-- Puts credentials on requests. -/
structure Authenticator where
  credentials : Credentials
  scheme : SigningScheme
  deriving DecidableEq

namespace Authenticator

def keyHeader : String := "x-api-key"
def secretHeader : String := "x-api-secret"
def bearerHeader : String := "Authorization"
def timestampHeader : String := "x-api-timestamp"
def signatureHeader : String := "x-api-signature"

/-- The names of all headers that an authenticator owns. -/
def headerNames : List String :=
  [keyHeader, secretHeader, bearerHeader, timestampHeader, signatureHeader]

/-- The headers that every request gets. -/
def headers (a : Authenticator) : List (String × String) :=
  [(keyHeader, a.credentials.key),
    (secretHeader, a.credentials.secret),
    (bearerHeader, "Bearer " ++ a.credentials.bearer)]

/-- What is signed: the time in milliseconds, the method, the path, the parameters and the body. -/
def payload (r : Http.Request) (millis : Int) : String :=
  Text.signed millis ++ r.method.text ++ r.path ++ r.queryString ++ r.body.getD ""

/-- The signature of a request at a time in milliseconds. -/
def sign (a : Authenticator) (r : Http.Request) (millis : Int) : String :=
  Crypto.signature a.credentials.secret (payload r millis)

/-- The request with keys and token. -/
def withKeys (a : Authenticator) (r : Http.Request) : Http.Request :=
  a.headers.foldl (fun r h => r.setHeader h.1 h.2) r

/-- The request with all its headers.  Only a signature takes the time. -/
def decorate (a : Authenticator) (clock : Checked Timestamp) (r : Http.Request) :
    Checked Http.Request :=
  let r := a.withKeys r
  match a.scheme with
  | .bearerToken => .ok r
  | .hmacSha256 => do
    let millis := (← clock).millis
    let signature := a.sign r millis
    return (r.setHeader timestampHeader (Text.signed millis)).setHeader signatureHeader signature

end Authenticator

end SpotGateway
