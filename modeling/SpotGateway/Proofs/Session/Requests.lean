import SpotGateway.Proofs.Authentication.Payload
import SpotGateway.Proofs.Http.Address
import SpotGateway.Proofs.Session.Submission

/-!
# The requests of a session

What is signed and what is put into an address does not tell requests apart in general, for nothing
stands in for the marks between their parts.  Among the requests that a session signs it does, and of
those that ask for a pair an address tells the symbol if this has no marks in it.

* `Http.Request.ofSigned`, `Errand.request_eq_of_payload` — requests of sessions, read from what is
  signed;
* `Authenticator.payload_identifies`, `Authenticator.payload_of_division` — what a signature tells,
  and requests that are signed alike;
* `Call.pair?`, `Session.query_of_start` — requests with a symbol;
* `Session.address_identifies`, `Session.address_of_mark` — what an address tells, and requests that
  have the same address.
-/

set_option autoImplicit false

namespace SpotGateway

open Exchange

/-! ## What is signed -/

/-- How a request for the executions of a pair begins, where it is signed. -/
def Http.Request.tradesHead : String := Path.myTrades ++ "symbol" ++ "="

/-- The request that a session signs, read from its method and what is signed of it besides. -/
def Http.Request.ofSigned (method : Http.Method) (part : String) : Http.Request :=
  if method = .post then
    (Http.Request.bare .post Path.order).withBody
      (.ofList (part.toList.drop Path.order.toList.length))
  else if method = .get ∧ part.toList.head? = some 'm' then
    (Http.Request.bare .get Path.myTrades).withQuery "symbol"
      (.ofList (part.toList.drop tradesHead.toList.length))
  else .bare method part

theorem Http.Request.signedPart_bare (m : Http.Method) (path : String) :
    (Http.Request.bare m path).signedPart = path := by
  simp [signedPart, bare, queryString]

/-- What a session signs can be read back. -/
theorem Errand.ofSigned_request {e : Errand} (h : e.endpoint.needsAuthentication = true) :
    Http.Request.ofSigned e.request.method e.request.signedPart = e.request := by
  cases e with
  | place o symbol =>
    have hpart : (Errand.place o symbol).request.signedPart =
        Path.order ++ (o.submission symbol).text := by
      simp [Http.Request.signedPart, request, endpoint, Endpoint.request, Http.Request.bare,
        Http.Request.withBody, Http.Request.queryString, Endpoint.path]
    have hmethod : (Errand.place o symbol).request.method = .post := rfl
    rw [hmethod, hpart, Http.Request.ofSigned, if_pos rfl, String.toList_append, List.drop_left,
      String.ofList_toList]
    rfl
  | trades pair symbol =>
    have hpart : (Errand.trades pair symbol).request.signedPart =
        Http.Request.tradesHead ++ symbol := by
      rw [← String.toList_inj]
      simp [Http.Request.signedPart, request, endpoint, Endpoint.request, Http.Request.bare,
        Http.Request.withQuery, Http.Request.queryString, Endpoint.path, Http.Request.tradesHead]
    have hmethod : (Errand.trades pair symbol).request.method = .get := rfl
    have hhead : (Http.Request.tradesHead ++ symbol).toList.head? = some 'm' := by
      simp [Http.Request.tradesHead, Path.myTrades]
    rw [hmethod, hpart, Http.Request.ofSigned, if_neg (by decide), if_pos ⟨rfl, hhead⟩,
      String.toList_append, List.drop_left, String.ofList_toList]
    rfl
  | cancel exchangeId =>
    have hrequest : (Errand.cancel exchangeId).request =
        .bare .delete (Path.order ++ "/" ++ exchangeId) := rfl
    rw [hrequest, Http.Request.signedPart_bare]
    rfl
  | status exchangeId =>
    have hrequest : (Errand.status exchangeId).request =
        .bare .get (Path.order ++ "/" ++ exchangeId) := rfl
    have hhead : ¬ (Http.Method.get = .get ∧
        (Path.order ++ "/" ++ exchangeId).toList.head? = some 'm') := by
      simp [Path.order]
    rw [hrequest, Http.Request.signedPart_bare, Http.Request.ofSigned,
      if_neg (by simp [Http.Request.bare])]
    exact if_neg hhead
  | openOrders => rfl
  | allOrders => rfl
  | balances => rfl
  | _ => cases h

/-- Errands whose requests are signed alike have the same request. -/
theorem Errand.request_eq_of_payload {e e' : Errand}
    (h : e.endpoint.needsAuthentication = true) (h' : e'.endpoint.needsAuthentication = true)
    {millis millis' : Int}
    (hsame : Authenticator.payload e.request millis = Authenticator.payload e'.request millis') :
    millis = millis' ∧ e.request = e'.request := by
  obtain ⟨hmillis, hmethod, hpart⟩ := Authenticator.payload_eq_iff.mp hsame
  exact ⟨hmillis, by rw [← ofSigned_request h, ← ofSigned_request h', hmethod, hpart]⟩

namespace Authenticator

/-- **What a signature tells of a request.**

* What is signed is the same exactly if the times, the methods, and the texts of path, parameters and
  body taken together are.
* So among requests that are signed alike, any two of path, parameters as they are sent, and body
  tell the third, where a body that is not sent counts as an empty one; and plain parameters are told
  by how they are sent.
* And two sessions that send requests which are signed alike send the same request at the same time,
  but for headers. -/
theorem payload_identifies :
    (∀ (r r' : Http.Request) (millis millis' : Int), payload r millis = payload r' millis' ↔
      millis = millis' ∧ r.method = r'.method ∧ r.signedPart = r'.signedPart) ∧
    (∀ (r r' : Http.Request) (millis millis' : Int), payload r millis = payload r' millis' →
      (r.queryString = r'.queryString → r.body.getD "" = r'.body.getD "" → r.path = r'.path) ∧
      (r.path = r'.path → r.body.getD "" = r'.body.getD "" → r.queryString = r'.queryString) ∧
      (r.path = r'.path → r.queryString = r'.queryString → r.body.getD "" = r'.body.getD "")) ∧
    (∀ r r' : Http.Request, Http.PlainParameters r.query → Http.PlainParameters r'.query →
      r.queryString = r'.queryString → r.query = r'.query) ∧
    ∀ (s s₁ t t₁ : Session) (now now' : Readings) (expired expired' : Bool) (call call' : Call)
      (p p' : Pending) (millis millis' : Int),
      s.start now expired call = .ok (s₁, .ok p) → t.start now' expired' call' = .ok (t₁, .ok p') →
      p.errand.endpoint.needsAuthentication = true →
      p'.errand.endpoint.needsAuthentication = true →
      payload p.request millis = payload p'.request millis' →
      millis = millis' ∧ ∃ headers, p'.request = { p.request with headers } := by
  refine ⟨fun r r' millis millis' => payload_eq_iff, ?_, ?_, ?_⟩
  · intro r r' millis millis' h
    obtain ⟨_, _, hpart⟩ := payload_eq_iff.mp h
    have htext := congrArg String.toList hpart
    simp only [Http.Request.signedPart, String.toList_append] at htext
    refine ⟨fun hquery hbody => ?_, fun hpath hbody => ?_, fun hpath hquery => ?_⟩
    · rw [hquery, hbody] at htext
      exact String.toList_inj.mp (List.append_cancel_right (List.append_cancel_right htext))
    · rw [hpath, hbody] at htext
      exact String.toList_inj.mp (List.append_cancel_left (List.append_cancel_right htext))
    · rw [hpath, hquery] at htext
      exact String.toList_inj.mp (List.append_cancel_left htext)
  · exact fun r r' h h' hsame => Http.Request.query_of_queryString h h' hsame
  · intro s s₁ t t₁ now now' expired expired' call call' p p' millis millis' hstart hstart' hneeds
      hneeds' hsame
    obtain ⟨headers, hrequest⟩ := Session.request_of_start hstart
    obtain ⟨headers', hrequest'⟩ := Session.request_of_start hstart'
    have herrands : payload p.errand.request millis = payload p'.errand.request millis' := by
      rw [hrequest, hrequest'] at hsame
      exact hsame
    obtain ⟨hmillis, hequal⟩ := Errand.request_eq_of_payload hneeds hneeds' herrands
    refine ⟨hmillis, headers', ?_⟩
    rw [hrequest', hrequest, hequal]

/-- Cancellations of two orders are not signed alike, at any times. -/
theorem payload_twoCancellations : ∃ s s₁ s₂ p p',
    Session.create .default ⟨"key", "secret", none⟩ = .ok s ∧
    s.start (.still ⟨0, false⟩) false (.cancel "1") = .ok (s₁, .ok p) ∧
    s.start (.still ⟨0, false⟩) false (.cancel "12") = .ok (s₂, .ok p') ∧
    ∀ millis millis', payload p.request millis ≠ payload p'.request millis' := by
  obtain ⟨s, s₁, s₂, p, p', hs, hstart, hstart', hneeds, hneeds', hpaths⟩ : ∃ s s₁ s₂ p p',
      Session.create .default ⟨"key", "secret", none⟩ = .ok s ∧
      s.start (.still ⟨0, false⟩) false (.cancel "1") = .ok (s₁, .ok p) ∧
      s.start (.still ⟨0, false⟩) false (.cancel "12") = .ok (s₂, .ok p') ∧
      p.errand.endpoint.needsAuthentication = true ∧
      p'.errand.endpoint.needsAuthentication = true ∧
      (p.request.path, p'.request.path) = ("order/1", "order/12") :=
    ⟨_, _, _, _, _, rfl, rfl, rfl, rfl, rfl, rfl⟩
  refine ⟨s, s₁, s₂, p, p', hs, hstart, hstart', fun millis millis' hsame => ?_⟩
  obtain ⟨_, headers, hrequest⟩ := payload_identifies.2.2.2 _ _ _ _ _ _ _ _ _ _ _ _ _ _ hstart
    hstart' hneeds hneeds' hsame
  rw [hrequest, Prod.mk.injEq] at hpaths
  obtain ⟨hpath, hpath'⟩ := hpaths
  have hequal : "order/1" = "order/12" := hpath.symm.trans hpath'
  exact absurd hequal (by decide)

/-- Whoever has the signature of the one request has that of the other: what stands at the end of the
path of the one is the body of the other. -/
theorem payload_of_division :
    let r := Http.Request.bare .get "order/1"
    let r' := (Http.Request.bare .get "order/").withBody "1"
    r.path ≠ r'.path ∧ r.body ≠ r'.body ∧
      ∀ millis, payload r millis = payload r' millis ∧ ∀ a, sign a r millis = sign a r' millis := by
  intro r r'
  have hsame : ∀ millis, payload r millis = payload r' millis := fun millis =>
    (payload_eq_of_moved r' rfl "1" rfl millis).symm
  refine ⟨by decide, by decide, fun millis => ⟨hsame millis, fun a => ?_⟩⟩
  rw [sign, sign, hsame]

end Authenticator

/-! ## Addresses -/

/-- The pair whose symbol the call sends as its parameter. -/
def Call.pair? : Call → Option String
  | .ticker pair | .bookTicker pair | .trades pair => some pair
  | _ => none

namespace Session

variable {s s' : Session} {now : Readings} {expired : Bool} {call : Call} {p : Pending}

/-- A call that asks for a pair sends its symbol as the one parameter, and no marks in its path. -/
theorem query_of_start {pair : String} (hpair : call.pair? = some pair)
    (h : s.start now expired call = .ok (s', .ok p)) :
    ∃ symbol, s.symbols.current.symbolOf pair = .ok symbol ∧
      p.request.query = [("symbol", symbol)] ∧
      '?' ∉ p.request.path.toList ∧ '#' ∉ p.request.path.toList := by
  have marks : ∀ path ∈ [Path.tickerPrice, Path.bookTicker, Path.myTrades],
      '?' ∉ path.toList ∧ '#' ∉ path.toList := by decide
  obtain ⟨headers, hrequest⟩ := request_of_start h
  have told : ∀ (path : String) (errand : String → Errand),
      s.withSymbol pair errand = .ok p.errand →
      (∀ symbol, (errand symbol).request =
        (Http.Request.bare .get path).withQuery "symbol" symbol) →
      path ∈ [Path.tickerPrice, Path.bookTicker, Path.myTrades] →
      ∃ symbol, s.symbols.current.symbolOf pair = .ok symbol ∧
        p.request.query = [("symbol", symbol)] ∧
        '?' ∉ p.request.path.toList ∧ '#' ∉ p.request.path.toList := by
    intro path errand herrand hasked hpath
    obtain ⟨symbol, hsymbol, herrand⟩ := withSymbol_eq_ok.mp herrand
    rw [hrequest, herrand, hasked]
    exact ⟨symbol, hsymbol, rfl, marks path hpath⟩
  have planned := plan_of_start h
  cases call with
  | ticker pair' =>
    cases hpair
    exact told Path.tickerPrice _ (Except.ok.inj planned) (fun _ => rfl) (by decide)
  | bookTicker pair' =>
    cases hpair
    exact told Path.bookTicker _ (Except.ok.inj planned) (fun _ => rfl) (by decide)
  | trades pair' =>
    cases hpair
    exact told Path.myTrades _ (Except.ok.inj planned) (fun _ => rfl) (by decide)
  | _ => cases hpair

/-- **What an address tells of a request.**

* Below any base address, plain requests have the same address exactly if path and parameters are the
  same, but for slashes in front of the path.
* Any text can be the symbol of a pair.  Below a base address without marks, the address of a request
  with a symbol as its one parameter, and no marks in its path, carries exactly this parameter to a
  reader if the symbol has neither an ampersand nor a hash sign in it and stands for itself where that
  reader decodes it, and else does not.
* The calls that ask for a pair send such requests, with the symbol of the pair. -/
theorem address_identifies (base : String) (reader : Http.Reader) :
    (∀ r r' : Http.Request, r.Plain → r'.Plain →
      (r.address base = r'.address base ↔
        Http.relativePath r.path = Http.relativePath r'.path ∧ r.query = r'.query)) ∧
    (∀ symbol : String, ∃ m, SymbolMap.build [⟨symbol, "A", "B", none⟩] = .ok m ∧
      m.symbolOf "A-B" = .ok symbol) ∧
    (∀ (symbol : String) (r : Http.Request), '?' ∉ base.toList ∧ '#' ∉ base.toList →
      '?' ∉ r.path.toList ∧ '#' ∉ r.path.toList → r.query = [("symbol", symbol)] →
      (reader.parameters (r.address base) = [("symbol", symbol)] ↔
        '&' ∉ symbol.toList ∧ '#' ∉ symbol.toList ∧
          reader.decode symbol.toList = symbol.toList)) ∧
    ∀ (s s' : Session) (now : Readings) (expired : Bool) (call : Call) (pair : String)
      (p : Pending), call.pair? = some pair → s.start now expired call = .ok (s', .ok p) →
      ∃ symbol, s.symbols.current.symbolOf pair = .ok symbol ∧
        p.request.query = [("symbol", symbol)] ∧
        '?' ∉ p.request.path.toList ∧ '#' ∉ p.request.path.toList := by
  refine ⟨fun r r' h h' => Http.Request.address_eq_iff h h', fun symbol => ⟨_, rfl, rfl⟩, ?_, ?_⟩
  · intro symbol r hbase hpath hquery
    exact Http.Request.parameters_address_iff reader hbase hpath
      (List.all_eq_true.mp (by decide)) hquery
  · intro s s' now expired call pair p hpair hstart
    exact query_of_start hpair hstart

/-- The address of a question for the price of one pair: a reader of forms reads the symbol back. -/
theorem address_oneTicker : ∃ s s₁ p, Session.create .default ⟨"key", "secret", none⟩ = .ok s ∧
    s.learnPair.start (.still ⟨0, false⟩) false (.ticker "ETH-XLM") = .ok (s₁, .ok p) ∧
    Http.Reader.forms.parameters (p.request.address restUrl) = [("symbol", "ETH/XLM")] := by
  obtain ⟨s, s₁, p, hs, hstart, hsymbol⟩ : ∃ s s₁ p,
      Session.create .default ⟨"key", "secret", none⟩ = .ok s ∧
      s.learnPair.start (.still ⟨0, false⟩) false (.ticker "ETH-XLM") = .ok (s₁, .ok p) ∧
      s.learnPair.symbols.current.symbolOf "ETH-XLM" = .ok "ETH/XLM" :=
    ⟨_, _, _, rfl, rfl, rfl⟩
  obtain ⟨_, _, hcarried, hsent⟩ := address_identifies restUrl Http.Reader.forms
  obtain ⟨symbol, hsymbol', hquery, hpath⟩ := hsent _ _ _ _ _ _ _ rfl hstart
  rw [hsymbol] at hsymbol'
  cases hsymbol'
  exact ⟨s, s₁, p, hs, hstart,
    (hcarried _ _ (by decide) hpath hquery).mpr (by decide)⟩

/-- A symbol with an ampersand in it: what asks for its price has the address of a request with two
parameters, below every base address, and every reader reads these.  Of a symbol with a hash sign in
it every reader reads what stands ahead of that. -/
theorem address_of_mark :
    let r := (Errand.ticker "A-B" "A&symbol=B").request
    let r' := (Endpoint.tickerPrice.request.withQuery "symbol" "A").withQuery "symbol" "B"
    let cut := (Errand.ticker "A-B" "A#B").request
    (∀ symbol ∈ ["A&symbol=B", "A#B"], ∃ m, SymbolMap.build [⟨symbol, "A", "B", none⟩] = .ok m ∧
      m.symbolOf "A-B" = .ok symbol) ∧
    r.query = [("symbol", "A&symbol=B")] ∧ r.query ≠ r'.query ∧
    (∀ base, r.address base = r'.address base) ∧
    cut.query = [("symbol", "A#B")] ∧
    ∀ reader : Http.Reader,
      reader.parameters (r.address restUrl) = [("symbol", "A"), ("symbol", "B")] ∧
        reader.parameters (cut.address restUrl) = [("symbol", "A")] := by
  intro r r' cut
  have hsame : r.queryString = r'.queryString := by decide
  refine ⟨fun symbol _ => ⟨_, rfl, rfl⟩, rfl, by decide, fun base => ?_, rfl, fun reader => ?_⟩
  · rw [Http.Request.address, Http.Request.address, hsame]
    rfl
  · have hname := reader.decode_alphanumeric "symbol".toList (List.all_eq_true.mp (by decide))
    have hvalue := reader.decode_alphanumeric "A".toList (List.all_eq_true.mp (by decide))
    have hvalue' := reader.decode_alphanumeric "B".toList (List.all_eq_true.mp (by decide))
    have hread : ∀ value, reader.decode value.toList = value.toList →
        reader.parameter (Http.parameterText ("symbol", value)) = ("symbol", value) := by
      intro value hplain
      have hequals : '=' ∉ "symbol".toList := by decide
      rw [reader.parameter_parameterText hequals, hname, hplain]
      simp
    have hpieces : (r.queryString.toList.takeWhile fun c => c != '#').splitOn '&' =
        [Http.parameterText ("symbol", "A"), Http.parameterText ("symbol", "B")] := by decide
    have hpieces' : (cut.queryString.toList.takeWhile fun c => c != '#').splitOn '&' =
        [Http.parameterText ("symbol", "A")] := by decide
    constructor
    · rw [Http.Request.parameters_address reader (by decide) (by decide) (by decide),
        Http.Reader.query, hpieces]
      simp [Http.isEmpty_parameterText, hread _ hvalue, hread _ hvalue']
    · rw [Http.Request.parameters_address reader (by decide) (by decide) (by decide),
        Http.Reader.query, hpieces']
      simp [Http.isEmpty_parameterText, hread _ hvalue]

end Session

end SpotGateway
