import SpotGateway.Json.Value
import SpotGateway.Text.Ascii

/-!
# Requests

A request to the exchange, with its address relative to a base address.

* `Method` — what is to be done;
* `Request` — with `Request.withQuery`, `Request.withBody`, `Request.withHeader`;
* `Request.header?` — a header by its name in any case;
* `Request.setHeader` — in the place of every header of that name in any case;
* `Request.queryString`;
* `baseAddress`, `Request.address` — the full address.
-/

set_option autoImplicit false

namespace SpotGateway.Http

inductive Method where
  | get
  | post
  | put
  | delete
  deriving DecidableEq, Repr

def Method.text : Method → String
  | .get => "GET"
  | .post => "POST"
  | .put => "PUT"
  | .delete => "DELETE"

/-- A request to the exchange. -/
structure Request where
  method : Method
  /-- Without a slash in front. -/
  path : String
  /-- In the order they are sent. -/
  query : List (String × String)
  body : Option String
  /-- Sorted by name, each name once. -/
  headers : List (String × String)
  deriving DecidableEq, Repr

namespace Request

/-- A request without parameters, body and headers. -/
def bare (method : Method) (path : String) : Request := ⟨method, path, [], none, []⟩

def withQuery (r : Request) (key value : String) : Request :=
  { r with query := r.query ++ [(key, value)] }

def withBody (r : Request) (body : String) : Request := { r with body := some body }

/-- With a header in the place of one of exactly that name. -/
def withHeader (r : Request) (name value : String) : Request :=
  { r with headers := Json.insertMember name value r.headers }

/-- The value of the first header of that name, in any case. -/
def header? (r : Request) (name : String) : Option String :=
  (r.headers.find? fun h => Text.sameIgnoringCase h.1 name).map Prod.snd

/-- With a header in the place of all of that name, in any case. -/
def setHeader (r : Request) (name value : String) : Request :=
  { r with
    headers := Json.insertMember name value
      (r.headers.filter fun h => !Text.sameIgnoringCase h.1 name) }

/-- The parameters as they are sent. -/
def queryString (r : Request) : String :=
  String.intercalate "&" (r.query.map fun p => p.1 ++ "=" ++ p.2)

end Request

def isSlash (c : Char) : Bool := c == '/'

/-- A base address without the slashes at its end. -/
def baseAddress (url : String) : String :=
  String.ofList ((url.toList.reverse.dropWhile isSlash).reverse)

/-- A path without the slashes in front. -/
def relativePath (path : String) : String := String.ofList (path.toList.dropWhile isSlash)

/-- The address of a request below a base address. -/
def Request.address (r : Request) (base : String) : String :=
  let query := r.queryString
  baseAddress base ++ "/" ++ relativePath r.path ++ (if query = "" then "" else "?" ++ query)

end SpotGateway.Http
