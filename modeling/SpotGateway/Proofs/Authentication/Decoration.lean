import SpotGateway.Authentication
import SpotGateway.Proofs.Http.Headers
import SpotGateway.Proofs.Text.Digits

/-!
# Requests with credentials

Credentials go into headers of their own.  What a caller has put under the same names, in whatever
case, gives way to them; everything else of the request stays, and what is signed can be read off the
request as it is sent.

* `Authenticator.injected` — the headers that a request gets;
* `Authenticator.decorate_eq` — decorating is setting these;
* `Authenticator.Decorated` — what holds of the request that is sent;
* `Authenticator.decorated_of_decorate` — it does, and to decorate it again changes nothing.
-/

set_option autoImplicit false

namespace SpotGateway.Authenticator

open Http.Request (Besides NamesApart)

variable {a : Authenticator} {millis : Int} {r r' : Http.Request}

/-- The headers that a request gets at a time in milliseconds: those with the credentials, and under
the signing scheme the time and a signature over it and the request. -/
def injected (a : Authenticator) (millis : Int) (r : Http.Request) : List (String × String) :=
  a.headers ++ match a.scheme with
    | .bearerToken => []
    | .hmacSha256 => [(timestampHeader, Text.signed millis), (signatureHeader, a.sign r millis)]

/-- What is sent of a request besides its headers is signed, and they are not. -/
theorem sign_of_headers (a : Authenticator) (r : Http.Request) (headers : List (String × String))
    (millis : Int) : a.sign { r with headers } millis = a.sign r millis :=
  rfl

theorem injected_of_headers (a : Authenticator) (millis : Int) (r : Http.Request)
    (headers : List (String × String)) :
    a.injected millis { r with headers } = a.injected millis r :=
  rfl

theorem namesApart_injected (a : Authenticator) (millis : Int) (r : Http.Request) :
    NamesApart (a.injected millis r) := by
  have hnames : ((a.injected millis r).map Prod.fst).Pairwise
      fun name name' => Text.sameIgnoringCase name name' = false := by
    obtain ⟨credentials, scheme⟩ := a
    cases scheme with
    | bearerToken =>
      show [keyHeader, secretHeader, bearerHeader].Pairwise _
      decide
    | hmacSha256 =>
      show headerNames.Pairwise _
      decide
  exact List.pairwise_map.mp hnames

/-- To decorate a request is to set the headers that it gets. -/
theorem decorate_eq (a : Authenticator) (now : Timestamp) (r : Http.Request) :
    a.decorate (.ok now) r = .ok (r.setHeaders (a.injected now.millis r)) := by
  obtain ⟨credentials, scheme⟩ := a
  cases scheme <;> rfl

/-- The request is the one that is sent for the other at a time in milliseconds: it is the same but
for its headers, which are the injected ones and those of the other whose name is none of theirs, in
any case.  Each injected header is the only one of its name, so it is found in any case, and other
names are looked up as before.  Under the signing scheme the signature is the one over the request as
it is sent and the time that it tells. -/
structure Decorated (a : Authenticator) (millis : Int) (r r' : Http.Request) : Prop where
  method : r'.method = r.method
  path : r'.path = r.path
  query : r'.query = r.query
  body : r'.body = r.body
  ordered : r'.Ordered
  headers : ∀ h, h ∈ r'.headers ↔
    h ∈ a.injected millis r ∨ h ∈ r.headers ∧ Besides (a.injected millis r) h.1
  once : ∀ h ∈ a.injected millis r,
    r'.headers.filter (fun h' => Text.sameIgnoringCase h'.1 h.1) = [h]
  found : ∀ h ∈ a.injected millis r, ∀ name, Text.sameIgnoringCase name h.1 = true →
    r'.header? name = some h.2
  others : ∀ name, Besides (a.injected millis r) name → r'.header? name = r.header? name
  timed : a.scheme = .hmacSha256 → r'.header? timestampHeader = some (Text.signed millis)
  signed : a.scheme = .hmacSha256 → ∀ told, r'.header? timestampHeader = some (Text.signed told) →
    r'.header? signatureHeader = some (a.sign r' told)

/-- The time and the signature are among the headers that are injected. -/
theorem mem_injected_of_signing (hscheme : a.scheme = .hmacSha256) :
    (timestampHeader, Text.signed millis) ∈ a.injected millis r ∧
      (signatureHeader, a.sign r millis) ∈ a.injected millis r := by
  simp [injected, hscheme]

theorem decorated_setHeaders (hr : r.Ordered) :
    a.Decorated millis r (r.setHeaders (a.injected millis r)) := by
  have hapart := namesApart_injected a millis r
  obtain ⟨headers, hsame⟩ := r.setHeaders_eq (a.injected millis r)
  have hfound : ∀ h ∈ a.injected millis r, ∀ name, Text.sameIgnoringCase name h.1 = true →
      (r.setHeaders (a.injected millis r)).header? name = some h.2 :=
    fun h hmem name hname => Http.Request.header?_setHeaders hr hapart hmem hname
  have htimed : a.scheme = .hmacSha256 →
      (r.setHeaders (a.injected millis r)).header? timestampHeader = some (Text.signed millis) :=
    fun hscheme => hfound _ (mem_injected_of_signing hscheme).1 _ (Text.sameIgnoringCase_refl _)
  refine {
    method := by rw [hsame]
    path := by rw [hsame]
    query := by rw [hsame]
    body := by rw [hsame]
    ordered := hr.setHeaders _
    headers := fun h => Http.Request.mem_setHeaders hapart
    once := fun h hmem => Http.Request.filter_setHeaders hr hapart hmem
    found := hfound
    others := fun name hbesides => Http.Request.header?_setHeaders_of_besides hbesides
    timed := htimed
    signed := fun hscheme told htold => ?_ }
  rw [htimed hscheme, Option.some.injEq] at htold
  rw [← Text.signed_injective htold, hsame, sign_of_headers, ← hsame]
  exact hfound _ (mem_injected_of_signing hscheme).2 _ (Text.sameIgnoringCase_refl _)

/-- **Credentials are put on a request once, whatever it has in its headers.**  For all credentials,
under both schemes, at any time and for any request with its headers in order: the request that is
sent differs in headers alone, every header of the caller that has none of the injected names in any
case is still there and no others are, each injected header is there once and is found in any case,
the signature can be made again from what is sent, and decorating the request once more at the same
time changes nothing. -/
theorem decorated_of_decorate (a : Authenticator) (now : Timestamp) (hr : r.Ordered) :
    ∃ r', a.decorate (.ok now) r = .ok r' ∧ a.Decorated now.millis r r' ∧
      a.decorate (.ok now) r' = .ok r' := by
  refine ⟨_, a.decorate_eq now r, decorated_setHeaders hr, ?_⟩
  obtain ⟨headers, hsame⟩ := r.setHeaders_eq (a.injected now.millis r)
  have hinjected : a.injected now.millis (r.setHeaders (a.injected now.millis r)) =
      a.injected now.millis r := by
    rw [hsame, injected_of_headers]
  rw [decorate_eq, hinjected,
    Http.Request.setHeaders_setHeaders hr (namesApart_injected a now.millis r)]

/-- A request that brings a key, a signature and a time of its own, each in another case. -/
def forged : Http.Request :=
  { Http.Request.bare .get "account" with
    headers := [("X-API-KEY", "mine"), ("X-Api-Timestamp", "1"), ("accept", "json"),
      ("x-api-Signature", "forged")] }

/-- What was forged gives way, and what was asked for besides stays. -/
theorem decorated_forged : forged.Ordered ∧
    ∃ r', decorate ⟨⟨"key", "secret", none⟩, .hmacSha256⟩ (.ok ⟨5000000, false⟩) forged = .ok r' ∧
      r'.header? "X-API-KEY" = some "key" ∧ r'.header? "X-Api-Timestamp" = some "5" ∧
      r'.header? "Accept" = some "json" ∧
      r'.header? "x-api-Signature" = some (sign ⟨⟨"key", "secret", none⟩, .hmacSha256⟩ r' 5) := by
  have hordered : forged.Ordered := by decide
  obtain ⟨r', hdecorate, hdecorated, _⟩ :=
    decorated_of_decorate ⟨⟨"key", "secret", none⟩, .hmacSha256⟩ ⟨5000000, false⟩ hordered
  have hsigned := hdecorated.signed rfl 5 (hdecorated.timed rfl)
  refine ⟨hordered, r', hdecorate, hdecorated.found _ List.mem_cons_self _ (by decide),
    hdecorated.found (timestampHeader, "5") (mem_injected_of_signing rfl).1 _ (by decide),
    ?_, ?_⟩
  · rw [hdecorated.others "Accept" (by unfold Besides; decide)]
    rfl
  · have hfound := hdecorated.found _ (mem_injected_of_signing rfl).2 "x-api-Signature" (by decide)
    have hsame := hdecorated.found _ (mem_injected_of_signing rfl).2 signatureHeader (by decide)
    rw [hfound, ← hsame, hsigned]

end SpotGateway.Authenticator
