import SpotGateway.Proofs.Order.ClientIds
import SpotGateway.Proofs.Session.Submission

/-!
# Placing orders under ids of the session's own

Under a head that ids can start with, the check of an id that was made never fails: an order is got
ready without its id, and gets the id last.  So it makes no difference which id an order gets.  What is
left is chance: ids are random, and one that is on record is refused.

* `GatewayError.blamedId?` — the client id that an error is about;
* `Session.draft`, `Session.planOrder_eq_draft` — an order is got ready without its id;
* `Session.clientId_of_plan` — the id that an order gets;
* `Session.PlacedAlike`, `Session.alike_of_start` — ids that are not on record make no difference;
* `Session.blames_of_start`, `Session.blames_of_finish` — all that can be said against an id;
* `Session.start_of_sameId` — the second order under an id is refused;
* `Session.PlacesUnder`, `Session.placesUnder_make` — what holds whenever an order is placed.
-/

set_option autoImplicit false

namespace SpotGateway

/-! ## Errors about ids -/

namespace GatewayError

/-- The client id that an error is about, if it is about one. -/
def blamedId? : GatewayError → Option String
  | .unknownOrder clientId | .invalidOrder (.idLength clientId)
  | .invalidOrder (.idCharacters clientId) | .invalidOrder (.alreadyTracked clientId)
  | .invalidOrder (.notTerminal clientId) => some clientId
  | _ => none

theorem blamedId?_ofThrottle (refusal : ThrottleError) : (ofThrottle refusal).blamedId? = none := by
  cases refusal <;> rfl

theorem blamedId?_ofResponse (response : Http.Response) (receivedAt : Timestamp) :
    (ofResponse response receivedAt).blamedId? = none := by
  unfold ofResponse
  generalize Complaint.read response.body = complaint
  obtain ⟨code, text⟩ := complaint
  simp only
  split
  · rfl
  split
  · rfl
  split <;> rfl

end GatewayError

namespace Session

variable {s s' : Session} {now : Timestamp} {expired : Bool} {order : OrderRequest} {nonce : Uuid}
  {error : GatewayError} {clientId named : String}

theorem blamedId?_of_checkOrder {reason : InvalidOrder}
    (h : s.checkOrder order = .ok (.error reason)) :
    (GatewayError.invalidOrder reason).blamedId? = none := by
  unfold checkOrder at h
  split at h
  · cases h
    rfl
  · split at h
    · rename_i hprice
      cases h
      unfold priceFault at hprice
      split at hprice <;> split at hprice <;> cases hprice <;> rfl
    · split at h
      · cases h
      · obtain ⟨checked, _, h⟩ := bind_eq_ok.mp h
        cases checked with
        | error violation =>
          cases h
          rfl
        | ok u => cases h

theorem blamedId?_of_settle {r : Reservation} {delivery : Http.Delivery}
    (h : (s.settle now r delivery).2 = .error error) : error.blamedId? = none := by
  cases delivery with
  | timedOut =>
    cases h
    rfl
  | failed failure =>
    cases h
    rfl
  | reply response =>
    simp only [settle] at h
    split at h
    · cases h
    · cases h
      exact GatewayError.blamedId?_ofResponse response now

theorem blamedId?_of_readBody {α : Type} {e : Errand} {d : Json.Decoder α} {body : String}
    (h : readBody e d body = .error error) : error.blamedId? = none := by
  unfold readBody at h
  split at h <;> cases h
  rfl

/-! ## Orders without ids -/

/-- The symbol of a pair that is open for trading. -/
def openSymbol (s : Session) (pair : String) : Except GatewayError String := do
  let symbol ← s.symbols.current.symbolOf pair
  if s.isTradable pair then return symbol
  else .error (.invalidOrder (.notOpenForTrading pair))

theorem blamedId?_of_openSymbol {pair : String} (h : s.openSymbol pair = .error error) :
    error.blamedId? = none := by
  rcases bind_eq_error.mp h with hunknown | ⟨symbol, _, hclosed⟩
  · unfold SymbolMap.symbolOf at hunknown
    split at hunknown <;> cases hunknown
    rfl
  · split at hclosed <;> cases hclosed
    rfl

/-- An order that is ready but for its client id. -/
structure Draft where
  order : OrderRequest
  symbol : String
  createdAt : Timestamp

/-- The submission under a client id. -/
def Draft.errand (draft : Draft) (clientId : String) : Errand :=
  .place (InFlightOrder.create clientId draft.order.pair draft.order.side draft.order.kind
    draft.order.amount draft.order.price draft.createdAt) draft.symbol

/-- Everything that is done for an order before it gets its client id. -/
def draft (s : Session) (now : Timestamp) (order : OrderRequest) :
    Checked (Except GatewayError Draft) := do
  let order ← s.quantize order
  match ← s.checkOrder order with
  | .error reason => return .error (.invalidOrder reason)
  | .ok () =>
    match s.openSymbol order.pair with
    | .error e => return .error e
    | .ok symbol => return .ok ⟨order, symbol, ← s.serverNow now⟩

theorem blamedId?_of_draft (h : s.draft now order = .ok (.error error)) :
    error.blamedId? = none := by
  obtain ⟨rounded, _, h⟩ := bind_eq_ok.mp h
  obtain ⟨checked, hcheck, h⟩ := bind_eq_ok.mp h
  cases checked with
  | error reason =>
    cases h
    exact blamedId?_of_checkOrder hcheck
  | ok u =>
    simp only at h
    split at h
    · rename_i e hsymbol
      cases h
      exact blamedId?_of_openSymbol hsymbol
    · obtain ⟨createdAt, _, h⟩ := bind_eq_ok.mp h
      cases h

/-- The check of the id drops out. -/
theorem orderNames_eq (h : Config.isIdHead s.config.idHead = true) (order : OrderRequest)
    (nonce : Uuid) : s.orderNames order nonce.digits = (s.openSymbol order.pair).map
      fun symbol => (symbol, ClientId.make s.config.idHead order.side nonce.digits) := by
  have htaken := (ClientId.proper_make h order.side nonce).taken
  unfold orderNames openSymbol
  cases s.symbols.current.symbolOf order.pair with
  | error e => rfl
  | ok symbol =>
    simp only [bind, Except.bind, htaken]
    split <;> rfl

/-- An order gets its id last, and that cannot fail. -/
theorem planOrder_eq_draft (h : Config.isIdHead s.config.idHead = true) (now : Timestamp)
    (order : OrderRequest) (nonce : Uuid) : s.planOrder now order nonce.digits =
      (s.draft now order).map fun drafted => drafted.map fun draft =>
        draft.errand (ClientId.make s.config.idHead order.side nonce.digits) := by
  unfold planOrder draft
  cases hquantize : s.quantize order with
  | error fault => rfl
  | ok rounded =>
    -- rounding keeps the side, and with it the id
    have hnames := orderNames_eq h rounded nonce
    rw [(quantize_eq_ok hquantize).2.2.1] at hnames
    simp only [bind, Except.bind]
    cases s.checkOrder rounded with
    | error fault => rfl
    | ok checked =>
      cases checked with
      | error reason => rfl
      | ok u =>
        simp only [hnames]
        cases s.openSymbol rounded.pair with
        | error e => rfl
        | ok symbol =>
          simp only [Except.map]
          cases s.serverNow now <;> rfl

/-- What cannot be planned is not blamed on an id. -/
theorem blamedId?_of_planOrder (h : Config.isIdHead s.config.idHead = true)
    (hplan : s.planOrder now order nonce.digits = .ok (.error error)) : error.blamedId? = none := by
  rw [planOrder_eq_draft h] at hplan
  cases hdraft : s.draft now order with
  | error fault =>
    rw [hdraft] at hplan
    cases hplan
  | ok drafted =>
    rw [hdraft] at hplan
    cases drafted with
    | error e =>
      cases hplan
      exact blamedId?_of_draft hdraft
    | ok draft => cases hplan

/-- An order that is going to be submitted is under the id that was made for it. -/
theorem clientId_of_plan {call : Call} {e : Errand} {o : InFlightOrder}
    (h : s.plan now call = .ok (.ok e)) (hsubmitted : e.submitted = some o) :
    ∃ order digits, call = .place order digits ∧
      o.clientId = ClientId.make s.config.idHead order.side digits := by
  rcases plan_cases h with ⟨order, digits, rfl, hplan⟩ | ⟨_, hnone, _⟩
  · obtain ⟨rounded, symbol, clientId, createdAt, hquantize, _, hnames, _, rfl⟩ :=
      planOrder_eq_ok hplan
    cases hsubmitted
    refine ⟨order, digits, rfl, (orderNames_eq_ok hnames).2.2.trans ?_⟩
    rw [(quantize_eq_ok hquantize).2.2.1]
  · rw [hnone] at hsubmitted
    cases hsubmitted

/-! ## Which id it is -/

/-- Both orders are on their way, or the same stands in the way of both. -/
inductive PlacedAlike :
    Session × Except GatewayError Pending → Session × Except GatewayError Pending → Prop where
  | sent {s₁ s₂ : Session} {p₁ p₂ : Pending} (orders : s₁.OnlyOrders s₂)
      (reservation : p₂.reservation = p₁.reservation) (sequence : p₂.sequence = p₁.sequence) :
      PlacedAlike (s₁, .ok p₁) (s₂, .ok p₂)
  | refused (s : Session) (error : GatewayError) : PlacedAlike (s, .error error) (s, .error error)

/-- Whether a request can be signed does not depend on what it asks for. -/
theorem matched_requestOf (s : Session) (now : Timestamp) {e₁ e₂ : Errand}
    (h : e₂.endpoint = e₁.endpoint) :
    Matched (fun _ _ => True) (s.requestOf now e₁) (s.requestOf now e₂) := by
  unfold requestOf Authenticator.decorate
  rw [h]
  split
  · split
    · exact .ok trivial
    · exact (Matched.refl (fun _ => rfl) (s.signingTime now)).bind fun _ _ _ => .ok trivial
  · exact .ok trivial

theorem alike_of_issue {now : Readings} (draft : Draft) {clientId₁ clientId₂ : String}
    (hvacant₁ : s.tracker.get? clientId₁ = none) (hvacant₂ : s.tracker.get? clientId₂ = none) :
    Matched PlacedAlike (s.issue now expired (draft.errand clientId₁))
      (s.issue now expired (draft.errand clientId₂)) := by
  unfold issue
  refine (Matched.refl (fun _ => rfl) (s.limiter.reserve Endpoint.placeOrder.tier now.limiter)).bind
    fun reserved _ he => ?_
  subst he
  obtain ⟨limiter, admitted⟩ := reserved
  cases admitted with
  | error refusal => exact .ok (.refused _ _)
  | ok reservation =>
    have hsame : (draft.errand clientId₂).endpoint = (draft.errand clientId₁).endpoint := rfl
    refine (matched_requestOf { s with limiter } now.signature hsame).bind fun r₁ r₂ _ => ?_
    cases expired with
    | true => exact .ok (.refused _ _)
    | false =>
      simp only [Bool.false_eq_true, if_false, trackSubmitted, Draft.errand, Errand.submitted, track]
      rw [OrderTracker.track_of_vacant hvacant₁, OrderTracker.track_of_vacant hvacant₂]
      exact .ok (.sent ⟨_, rfl⟩ rfl rfl)

/-- Which id an order gets makes no difference, as long as it is not on record. -/
theorem alike_of_start {now : Readings} (h : Config.isIdHead s.config.idHead = true) (other : Uuid)
    (hvacant : s.tracker.get? (ClientId.make s.config.idHead order.side nonce.digits) = none)
    (hother : s.tracker.get? (ClientId.make s.config.idHead order.side other.digits) = none) :
    Matched PlacedAlike (s.start now expired (.place order nonce.digits))
      (s.start now expired (.place order other.digits)) := by
  simp only [start, plan, planOrder_eq_draft h]
  cases s.draft now.record order with
  | error fault => exact .error fault
  | ok drafted =>
    cases drafted with
    | error e => exact .ok (.refused s e)
    | ok draft => exact alike_of_issue draft hvacant hother

/-! ## What can be said against an id -/

/-- All that can be said against the id of an order that is going to be sent: it is on record. -/
theorem blames_of_start {now : Readings} (h : Config.isIdHead s.config.idHead = true)
    (hstart : s.start now expired (.place order nonce.digits) = .ok (s', .error error))
    (hblame : error.blamedId? = some named) :
    error = .invalidOrder
        (.alreadyTracked (ClientId.make s.config.idHead order.side nonce.digits)) ∧
      ∃ o, s.tracker.get? (ClientId.make s.config.idHead order.side nonce.digits) = some o := by
  cases started_of_start hstart with
  | refused _ planned unchanged =>
    rw [blamedId?_of_planOrder h planned] at hblame
    cases hblame
  | throttled errand limiter refusal planned reserved changed =>
    rw [GatewayError.blamedId?_ofThrottle] at hblame
    cases hblame
  | late errand limiter reservation planned reserved passed changed => cases hblame
  | untracked errand limiter reservation o tracker _ planned reserved intime submitted tracked
      changed =>
    obtain ⟨order', digits, hcall, hid⟩ := clientId_of_plan planned submitted
    cases hcall
    rcases OrderTracker.track_cases s.tracker o with ⟨_, htrack⟩ | ⟨known, hknown, htrack⟩
    · rw [htrack] at tracked
      cases tracked
    · rw [htrack] at tracked
      cases tracked
      rw [← hid]
      exact ⟨rfl, known, hknown⟩

/-- An order that is sent is on record under the id that was made for it. -/
theorem named_of_start {now : Readings} {digits : String} {p : Pending}
    (hstart : s.start now expired (.place order digits) = .ok (s', .ok p)) :
    ∃ o symbol, o.clientId = ClientId.make s.config.idHead order.side digits ∧
      p.errand = .place o symbol ∧ p.request.Submits (o.submission symbol) ∧
      s'.tracker.get? o.clientId = some o := by
  obtain ⟨o, symbol, herrand, hbody, hsubmitted⟩ := submitted_of_start hstart
  obtain ⟨order', digits', hcall, hid⟩ :=
    clientId_of_plan (plan_of_start hstart) (congrArg Errand.submitted herrand)
  cases hcall
  exact ⟨o, symbol, hid, herrand, hbody, hsubmitted.tracked⟩

/-- Planning looks neither at the budget nor at the orders on record. -/
theorem planOrder_congr (h : Config.isIdHead s.config.idHead = true) (limiter : Limiter)
    (tracker : OrderTracker) {other : Uuid}
    (hsame : ClientId.make s.config.idHead order.side other.digits =
      ClientId.make s.config.idHead order.side nonce.digits) :
    { s with limiter, tracker }.planOrder now order other.digits =
      s.planOrder now order nonce.digits := by
  have hafter : Config.isIdHead { s with limiter, tracker }.config.idHead = true := h
  rw [planOrder_eq_draft hafter, planOrder_eq_draft h]
  simp only [hsame]
  rfl

/-- Where two nonces give the same id, the second order is refused: the first is on record. -/
theorem start_of_sameId {now : Readings} (h : Config.isIdHead s.config.idHead = true)
    {p : Pending} (hstart : s.start now false (.place order nonce.digits) = .ok (s', .ok p))
    {other : Uuid} (hsame : ClientId.make s.config.idHead order.side other.digits =
      ClientId.make s.config.idHead order.side nonce.digits)
    {limiter : Limiter} {reservation : Reservation}
    (hreserve : s'.limiter.reserve Endpoint.placeOrder.tier now.limiter =
      .ok (limiter, .ok reservation)) :
    ∃ s'', s'.start now false (.place order other.digits) = .ok (s'', .error
      (.invalidOrder (.alreadyTracked
        (ClientId.make s.config.idHead order.side nonce.digits)))) := by
  obtain ⟨o, symbol, hid, herrand, _, htracked⟩ := named_of_start hstart
  cases started_of_start hstart with
  | sent errand first held request tracker planned reserved requested intime tracked changed =>
    cases (herrand : errand = .place o symbol)
    have hplan : s'.plan now.record (.place order other.digits) = .ok (.ok (.place o symbol)) := by
      rw [changed]
      exact (planOrder_congr h _ _ hsame).trans planned
    have hrequest : { s' with limiter }.requestOf now.signature (.place o symbol) = .ok request := by
      rw [changed]
      exact requested
    have hendpoint : (Errand.place o symbol).endpoint = .placeOrder := rfl
    rcases OrderTracker.track_cases s'.tracker o with ⟨hvacant, _⟩ | ⟨_, _, htrack⟩
    · rw [hvacant] at htracked
      cases htracked
    · simp only [start, hplan, bind, Except.bind, issue, hendpoint, hreserve, hrequest,
        Bool.false_eq_true, if_false, trackSubmitted, Errand.submitted, track, htrack, ← hid]
      exact ⟨_, rfl⟩

theorem takeUpdate_eq_error {u : OrderUpdate} (h : s.takeUpdate u = (s', .error error)) :
    error = .unknownOrder u.clientId ∧ s'.tracker.get? u.clientId = none := by
  unfold takeUpdate applyUpdate OrderTracker.apply at h
  cases ho : s.tracker.get? u.clientId with
  | none =>
    simp only [ho] at h
    cases h
    exact ⟨rfl, ho⟩
  | some o =>
    simp only [ho] at h
    split at h
    · cases h
    · rename_i hgone
      cases h
      exact ⟨rfl, hgone⟩

/-- All that can be said against the id of an order that was sent: it is not on record any more. -/
theorem blames_of_finish {now : Readings} {p : Pending} {o : InFlightOrder} {symbol : String}
    (hp : p.errand = .place o symbol) {delivery : Http.Delivery}
    (hfinish : s.finish now p delivery = .ok (s', .error error))
    (hblame : error.blamedId? = some named) :
    error = .unknownOrder o.clientId ∧ s'.tracker.get? o.clientId = none := by
  obtain ⟨s₁, settled, hsettle, _, hcases⟩ := finish_cases hfinish
  rcases hcases with ⟨failure, rfl, hsame, _⟩ | ⟨body, rfl, hbody⟩
  · cases hsame
    rw [blamedId?_of_settle (congrArg Prod.snd hsettle)] at hblame
    cases hblame
  · rw [hp] at hbody
    rcases taking_cases hbody with ⟨failure, hfailure, _, hsame⟩ | ⟨reply, _, htaken⟩
    · cases hsame
      rw [blamedId?_of_readBody hfailure] at hblame
      cases hblame
    · obtain ⟨⟨s₂, placed⟩, hplaced, htaken⟩ := bind_eq_ok.mp htaken
      cases placed with
      | ok o' => cases htaken
      | error e =>
        cases htaken
        rcases takePlaced_cases hplaced with ⟨_, hstatus, _, hsame⟩ | ⟨state, time, _, hupdate⟩
        · cases hsame
          rw [Status.normalize_eq_error hstatus] at hblame
          cases hblame
        · exact takeUpdate_eq_error hupdate

/-! ## Placing an order -/

/-- What holds whenever an order is placed under the client id that the nonce gives.  The id is
never found malformed: an error about an id keeps the order from being sent only if an order is on
record under it, and else the order fares like under any other id that is not on record.  If it is
sent, then under the id, which is on record then; and in the end there is no error about an id unless
nothing is on record under it any more. -/
structure PlacesUnder (s : Session) (now : Readings) (expired : Bool) (order : OrderRequest)
    (nonce : Uuid) (clientId : String) : Prop where
  unblamed : ∀ s' error named,
    s.start now expired (.place order nonce.digits) = .ok (s', .error error) →
    error.blamedId? = some named →
    error = .invalidOrder (.alreadyTracked clientId) ∧ ∃ o, s.tracker.get? clientId = some o
  indifferent : ∀ other : Uuid, s.tracker.get? clientId = none →
    s.tracker.get? (ClientId.make s.config.idHead order.side other.digits) = none →
    Matched PlacedAlike (s.start now expired (.place order nonce.digits))
      (s.start now expired (.place order other.digits))
  sent : ∀ s' p, s.start now expired (.place order nonce.digits) = .ok (s', .ok p) →
    ∃ o symbol, o.clientId = clientId ∧ p.request.Submits (o.submission symbol) ∧
      s'.tracker.get? clientId = some o ∧
      ∀ (s₁ s₂ : Session) later delivery error named,
        s₁.finish later p delivery = .ok (s₂, .error error) → error.blamedId? = some named →
        error = .unknownOrder clientId ∧ s₂.tracker.get? clientId = none

theorem placesUnder_make (h : Config.isIdHead s.config.idHead = true) (now : Readings)
    (expired : Bool) (order : OrderRequest) (nonce : Uuid) :
    s.PlacesUnder now expired order nonce
      (ClientId.make s.config.idHead order.side nonce.digits) where
  unblamed := fun _ _ _ hstart hblame => blames_of_start h hstart hblame
  indifferent := fun other hvacant hother => alike_of_start h other hvacant hother
  sent := by
    intro s' p hstart
    obtain ⟨o, symbol, hid, herrand, hbody, htracked⟩ := named_of_start hstart
    rw [hid] at htracked
    refine ⟨o, symbol, hid, hbody, htracked, ?_⟩
    intro s₁ s₂ later delivery error named hfinish hblame
    rw [← hid]
    exact blames_of_finish herrand hfinish hblame

end Session

end SpotGateway
