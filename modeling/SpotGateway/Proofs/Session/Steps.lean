import SpotGateway.Proofs.RateLimit.Admission
import SpotGateway.Session.Run

/-!
# What the two halves of a call do

* `Authenticator.headers_decorate` — credentials go into headers and nowhere else;
* `OrderRequest.RoundsTo`, `Session.quantize_eq_ok` — amount and price on the grid of the pair;
* `Status.normalize_eq_error`, `OrderListEntry.hasKnownStatus` — statuses that are not known;
* `Session.create_eq_ok`, `Session.create_isOk` — what a session starts from, and that it starts;
* `Session.orderNames_eq_ok`, `Session.planOrder_eq_ok`, `Session.plan_cases` — the names and the
  order that are submitted, and all that a call can plan;
* `Session.Started`, `Session.started_of_start`, `Session.changes_of_start`,
  `Session.plan_of_start`, `Session.request_of_start` — all that starting a call can do;
* `Session.takePlaced_eq`, `Session.takePlaced_cases`, `takeCancelled_cases`, `takeStatus_cases`,
  `takeReports_cases` — all that a reply about orders can do;
* `Session.fillsOf_congr` — what executions take from a session;
* `Session.OnlyOrders`, `Session.takeBody_cases` — replies change what is known of orders, but for
  those about the clock and about symbols and rules;
* `Session.Keeps`, `Session.keeps_takeBody` — no reply changes settings or the limiter;
* `Session.afterFailure_cases`, `Session.changes_settle`, `Session.finish_cases`,
  `Session.settings_of_finish` — all that finishing a call can do.
-/

set_option autoImplicit false

namespace SpotGateway

/-! ## Requests -/

/-- Credentials change nothing of a request but its headers. -/
theorem Authenticator.headers_decorate {a : Authenticator} {clock : Checked Timestamp}
    {r r' : Http.Request} (h : a.decorate clock r = .ok r') :
    ∃ headers, r' = { r with headers } := by
  have hkeys : ∃ headers, a.withKeys r = { r with headers } := ⟨_, rfl⟩
  obtain ⟨headers, hkeys⟩ := hkeys
  unfold decorate at h
  split at h
  · cases h
    exact ⟨headers, hkeys⟩
  · obtain ⟨time, _, h⟩ := bind_eq_ok.mp h
    cases h
    rw [hkeys]
    exact ⟨_, rfl⟩

/-- Amount and price are those of the order rounded down to the grid of the rule, or as the order has
them where there is no rule. -/
def OrderRequest.RoundsTo (order : OrderRequest) (rule : Option TradingRule) (amount : Decimal)
    (price : Option Decimal) : Prop :=
  match rule with
  | none => amount = order.amount ∧ price = order.price
  | some rule => rule.quantizeAmount order.amount = .ok amount ∧
      order.price.mapM rule.quantizePrice = .ok price

/-! ## Statuses -/

/-- The only thing that can be wrong with a status is that it is not known. -/
theorem Status.normalize_eq_error {raw : String} {error : GatewayError}
    (h : Status.normalize raw = .error error) : error = .unrecognizedStatus raw := by
  simp only [normalize] at h
  split at h
  · cases h
  · cases h
    rfl

/-- The status of the entry is one that is known. -/
def OrderListEntry.hasKnownStatus (e : OrderListEntry) : Bool := (Status.normalize e.status).isOk

namespace Session

/-! ## Opening a session -/

/-- A session starts with the budget of the exchange's tiers, and knows nothing yet. -/
theorem create_eq_ok {config : Config} {credentials : Credentials} {s : Session}
    (h : Session.create config credentials = .ok s) :
    ∃ table, Table.build Exchange.tiers = .ok table ∧ s = {
      config
      authenticator := ⟨credentials, config.signing⟩
      signsServerTime := true
      limiter := .create 0 table
      symbols := .create config.missingStatus
      rules := []
      tracker := .empty
      clock := .unshifted } := by
  unfold Session.create at h
  obtain ⟨_, _, h⟩ := bind_eq_ok.mp h
  split at h
  · cases h
  · rename_i table htable
    cases h
    exact ⟨table, htable, rfl⟩

/-- Whatever the credentials are, a session can be opened with settings that are accepted. -/
theorem create_isOk {config : Config} (hvalid : config.validate = .ok ())
    (credentials : Credentials) : ∃ s, create config credentials = .ok s := by
  unfold create
  rw [hvalid]
  exact ⟨_, rfl⟩

/-! ## Requests that are sent -/

theorem headers_requestOf {s : Session} {now : Timestamp} {e : Errand} {r : Http.Request}
    (h : s.requestOf now e = .ok r) : ∃ headers, r = { e.request with headers } := by
  unfold requestOf at h
  split at h
  · exact Authenticator.headers_decorate h
  · cases h
    exact ⟨_, rfl⟩

/-! ## Planning -/

/-- Rounding changes nothing of an order but its amount and its price. -/
theorem quantize_eq_ok {s : Session} {order rounded : OrderRequest}
    (h : s.quantize order = .ok rounded) :
    order.RoundsTo (s.rule? order.pair) rounded.amount rounded.price ∧
      rounded.pair = order.pair ∧ rounded.side = order.side ∧ rounded.kind = order.kind := by
  unfold quantize at h
  cases hrule : s.rule? order.pair with
  | none =>
    rw [hrule] at h
    cases h
    exact ⟨⟨rfl, rfl⟩, rfl, rfl, rfl⟩
  | some rule =>
    simp only [hrule] at h
    obtain ⟨amount, hamount, h⟩ := bind_eq_ok.mp h
    cases hprice : order.price with
    | none =>
      simp only [hprice] at h
      cases h
      exact ⟨⟨hamount, by rw [hprice]; rfl⟩, rfl, rfl, rfl⟩
    | some price =>
      simp only [hprice] at h
      obtain ⟨price', hrounded, h⟩ := bind_eq_ok.mp h
      cases h
      refine ⟨⟨hamount, ?_⟩, rfl, rfl, rfl⟩
      rw [hprice, Option.mapM_some, hrounded]
      rfl

/-- A call that names a pair needs its symbol. -/
theorem withSymbol_eq_ok {s : Session} {pair : String} {errand : String → Errand} {e : Errand} :
    s.withSymbol pair errand = .ok e ↔
      ∃ symbol, s.symbols.current.symbolOf pair = .ok symbol ∧ e = errand symbol := by
  unfold withSymbol
  cases s.symbols.current.symbolOf pair <;> simp [Except.map, eq_comm]

/-- Names are given for pairs that are known and open for trading, and ids are made. -/
theorem orderNames_eq_ok {s : Session} {order : OrderRequest} {nonce symbol clientId : String}
    (h : s.orderNames order nonce = .ok (symbol, clientId)) :
    s.symbols.current.symbolOf order.pair = .ok symbol ∧ s.isTradable order.pair = true ∧
      clientId = ClientId.make s.config.idHead order.side nonce := by
  unfold orderNames at h
  obtain ⟨symbol', hsymbol, h⟩ := bind_eq_ok.mp h
  split at h
  · rename_i hopen
    obtain ⟨_, _, h⟩ := bind_eq_ok.mp h
    cases h
    exact ⟨hsymbol, hopen, rfl⟩
  · cases h

/-- The order that is submitted is the rounded and checked one, under a client id of its own. -/
theorem planOrder_eq_ok {s : Session} {now : Timestamp} {order : OrderRequest} {nonce : String}
    {errand : Errand} (h : s.planOrder now order nonce = .ok (.ok errand)) :
    ∃ rounded symbol clientId createdAt, s.quantize order = .ok rounded ∧
      s.checkOrder rounded = .ok (.ok ()) ∧
      s.orderNames rounded nonce = .ok (symbol, clientId) ∧ s.serverNow now = .ok createdAt ∧
      errand = .place (InFlightOrder.create clientId rounded.pair rounded.side rounded.kind
        rounded.amount rounded.price createdAt) symbol := by
  unfold planOrder at h
  obtain ⟨rounded, hquantize, h⟩ := bind_eq_ok.mp h
  obtain ⟨checked, hcheck, h⟩ := bind_eq_ok.mp h
  cases checked with
  | error reason => cases h
  | ok u =>
    simp only at h
    split at h
    · cases h
    · rename_i symbol clientId hnames
      obtain ⟨createdAt, hclock, h⟩ := bind_eq_ok.mp h
      cases h
      exact ⟨rounded, symbol, clientId, createdAt, hquantize, hcheck, hnames, hclock, rfl⟩

/-- All that a call can plan: the submission of an order, if it places one, and else something that
submits none. -/
theorem plan_cases {s : Session} {now : Timestamp} {call : Call} {e : Errand}
    (h : s.plan now call = .ok (.ok e)) :
    (∃ order nonce, call = .place order nonce ∧ s.planOrder now order nonce = .ok (.ok e)) ∨
      (∀ order nonce, call ≠ .place order nonce) ∧ e.submitted = none ∧
        (e = .exchangeInfo ↔ call = .exchangeInfo) := by
  cases call with
  | place order nonce => exact Or.inl ⟨order, nonce, rfl, h⟩
  | ticker pair =>
    obtain ⟨symbol, _, rfl⟩ := withSymbol_eq_ok.mp (Except.ok.inj h)
    exact Or.inr ⟨by simp, rfl, by simp⟩
  | bookTicker pair =>
    obtain ⟨symbol, _, rfl⟩ := withSymbol_eq_ok.mp (Except.ok.inj h)
    exact Or.inr ⟨by simp, rfl, by simp⟩
  | trades pair =>
    obtain ⟨symbol, _, rfl⟩ := withSymbol_eq_ok.mp (Except.ok.inj h)
    exact Or.inr ⟨by simp, rfl, by simp⟩
  | _ =>
    cases h
    exact Or.inr ⟨by simp, rfl, by simp⟩

/-! ## Starting a call -/

/-- All that starting a call can do. -/
inductive Started (s : Session) (now : Readings) (expired : Bool) (call : Call) (s' : Session) :
    Except GatewayError Pending → Prop where
  /-- Nothing was reserved. -/
  | refused (error : GatewayError) (planned : s.plan now.record call = .ok (.error error))
      (unchanged : s' = s) : Started s now expired call s' (.error error)
  /-- The limiter refuses. -/
  | throttled (errand : Errand) (limiter : Limiter) (refusal : ThrottleError)
      (planned : s.plan now.record call = .ok (.ok errand))
      (reserved : s.limiter.reserve errand.endpoint.tier now.limiter = .ok (limiter, .error refusal))
      (changed : s' = { s with limiter }) :
      Started s now expired call s' (.error (.ofThrottle refusal))
  /-- The deadline has passed before the request is sent. -/
  | late (errand : Errand) (limiter : Limiter) (reservation : Reservation)
      (planned : s.plan now.record call = .ok (.ok errand))
      (reserved : s.limiter.reserve errand.endpoint.tier now.limiter = .ok (limiter, .ok reservation))
      (passed : expired = true) (changed : s' = { s with limiter }.release reservation) :
      Started s now expired call s' (.error (.deadlineExceeded false))
  /-- The order that is submitted cannot be tracked. -/
  | untracked (errand : Errand) (limiter : Limiter) (reservation : Reservation)
      (order : InFlightOrder) (tracker : OrderTracker) (error : GatewayError)
      (planned : s.plan now.record call = .ok (.ok errand))
      (reserved : s.limiter.reserve errand.endpoint.tier now.limiter = .ok (limiter, .ok reservation))
      (intime : expired = false) (submitted : errand.submitted = some order)
      (tracked : s.tracker.track order = (tracker, .error error))
      (changed : s' = { s with limiter, tracker }.release reservation) :
      Started s now expired call s' (.error error)
  /-- The request is sent. -/
  | sent (errand : Errand) (limiter : Limiter) (reservation : Reservation) (request : Http.Request)
      (tracker : OrderTracker) (planned : s.plan now.record call = .ok (.ok errand))
      (reserved : s.limiter.reserve errand.endpoint.tier now.limiter = .ok (limiter, .ok reservation))
      (requested : s.requestOf now.signature errand = .ok request) (intime : expired = false)
      (tracked : match errand.submitted with
        | some order => s.tracker.track order = (tracker, .ok ())
        | none => tracker = s.tracker)
      (changed : s' = { s with limiter, tracker := (tracker.nextSequence now.sequencer).1 }) :
      Started s now expired call s' (.ok ⟨errand, request, reservation,
        (tracker.nextSequence now.sequencer).2⟩)

theorem started_of_start {s s' : Session} {now : Readings} {expired : Bool} {call : Call}
    {result : Except GatewayError Pending} (h : s.start now expired call = .ok (s', result)) :
    Started s now expired call s' result := by
  unfold start at h
  obtain ⟨planned, hplan, h⟩ := bind_eq_ok.mp h
  cases planned with
  | error error =>
    cases h
    exact .refused error hplan rfl
  | ok errand =>
    simp only [issue] at h
    obtain ⟨⟨limiter, admitted⟩, hreserve, h⟩ := bind_eq_ok.mp h
    cases admitted with
    | error refusal =>
      cases h
      exact .throttled errand limiter refusal hplan hreserve rfl
    | ok reservation =>
      obtain ⟨request, hrequest, h⟩ := bind_eq_ok.mp h
      split at h
      · rename_i hexpired
        cases h
        exact .late errand limiter reservation hplan hreserve hexpired rfl
      · rename_i hexpired
        rw [Bool.not_eq_true] at hexpired
        unfold trackSubmitted at h
        cases hsubmitted : errand.submitted with
        | none =>
          simp only [hsubmitted] at h
          cases h
          exact .sent errand limiter reservation request s.tracker hplan hreserve hrequest hexpired
            (by rw [hsubmitted]) rfl
        | some order =>
          simp only [hsubmitted, track] at h
          cases htrack : s.tracker.track order with
          | mk tracker tracked =>
            rw [htrack] at h
            cases tracked with
            | error error =>
              cases h
              exact .untracked errand limiter reservation order tracker error hplan hreserve
                hexpired hsubmitted htrack rfl
            | ok u =>
              cases h
              exact .sent errand limiter reservation request tracker hplan hreserve hrequest
                hexpired (by rw [hsubmitted]; exact htrack) rfl

/-- Whatever becomes of a call, starting it changes nothing but the budget and what is known of
orders. -/
theorem changes_of_start {s s' : Session} {now : Readings} {expired : Bool} {call : Call}
    {result : Except GatewayError Pending} (h : s.start now expired call = .ok (s', result)) :
    ∃ limiter tracker, s' = { s with limiter, tracker } := by
  cases started_of_start h with
  | refused error planned unchanged => exact ⟨s.limiter, s.tracker, unchanged⟩
  | throttled errand limiter refusal planned reserved changed =>
    exact ⟨limiter, s.tracker, changed⟩
  | late errand limiter reservation planned reserved passed changed =>
    exact ⟨limiter.release reservation, s.tracker, changed⟩
  | untracked errand limiter reservation order tracker error planned reserved intime submitted
      tracked changed => exact ⟨limiter.release reservation, tracker, changed⟩
  | sent errand limiter reservation request tracker planned reserved requested intime tracked
      changed => exact ⟨limiter, (tracker.nextSequence now.sequencer).1, changed⟩

/-- What is sent is what was planned. -/
theorem plan_of_start {s s' : Session} {now : Readings} {expired : Bool} {call : Call} {p : Pending}
    (h : s.start now expired call = .ok (s', .ok p)) :
    s.plan now.record call = .ok (.ok p.errand) := by
  cases started_of_start h with
  | sent errand limiter reservation request tracker planned reserved requested intime tracked
      changed => exact planned

/-- What is sent is the request of the errand, but for headers. -/
theorem request_of_start {s s' : Session} {now : Readings} {expired : Bool} {call : Call}
    {p : Pending} (h : s.start now expired call = .ok (s', .ok p)) :
    ∃ headers, p.request = { p.errand.request with headers } := by
  cases started_of_start h with
  | sent errand limiter reservation request tracker planned reserved requested intime tracked
      changed => exact headers_requestOf requested

/-! ## Taking in replies -/

/-- Settings, credentials and limiter are the same. -/
structure Keeps (s s' : Session) : Prop where
  config : s'.config = s.config
  authenticator : s'.authenticator = s.authenticator
  signsServerTime : s'.signsServerTime = s.signsServerTime
  limiter : s'.limiter = s.limiter

variable {s s' : Session} {now : Timestamp}

/-- Nothing is different but what is known of orders. -/
def OnlyOrders (s s' : Session) : Prop := ∃ tracker, s' = { s with tracker }

theorem OnlyOrders.refl (s : Session) : s.OnlyOrders s := ⟨s.tracker, rfl⟩

theorem OnlyOrders.trans {s₁ s₂ s₃ : Session} (h : s₁.OnlyOrders s₂) (h' : s₂.OnlyOrders s₃) :
    s₁.OnlyOrders s₃ := by
  obtain ⟨_, rfl⟩ := h
  obtain ⟨tracker, rfl⟩ := h'
  exact ⟨tracker, rfl⟩

theorem OnlyOrders.keeps (h : s.OnlyOrders s') : s.Keeps s' := by
  obtain ⟨_, rfl⟩ := h
  exact ⟨rfl, rfl, rfl, rfl⟩

theorem onlyOrders_applyUpdate (s : Session) (u : OrderUpdate) :
    s.OnlyOrders (s.applyUpdate u).1 :=
  ⟨_, rfl⟩

theorem onlyOrders_nextSequence (s : Session) (now : Timestamp) :
    s.OnlyOrders (s.nextSequence now).1 :=
  ⟨_, rfl⟩

theorem onlyOrders_observe (s : Session) (r : OrderReport) : s.OnlyOrders (s.observe r) := ⟨_, rfl⟩

theorem taking_cases {α : Type} {result : Except GatewayError α}
    {take : α → Checked (Session × Except GatewayError Answer)}
    {r : Except GatewayError Answer} (h : s.taking result take = .ok (s', r)) :
    (∃ error, result = .error error ∧ s' = s ∧ r = .error error) ∨
      ∃ a, result = .ok a ∧ take a = .ok (s', r) := by
  cases result with
  | error error =>
    cases h
    exact Or.inl ⟨error, rfl, rfl, rfl⟩
  | ok a => exact Or.inr ⟨a, rfl, h⟩

theorem readBody_eq_ok_iff {α : Type} {e : Errand} {d : Json.Decoder α} {body : String} {a : α} :
    readBody e d body = .ok a ↔ Json.decode d body = .ok a := by
  unfold readBody
  cases Json.decode d body <;> simp

theorem tracker_takeExchangeInfo (s : Session) (info : ExchangeInfo) :
    (s.takeExchangeInfo info).1.tracker = s.tracker := by
  unfold takeExchangeInfo
  split <;> rfl

theorem keeps_takeExchangeInfo (s : Session) (info : ExchangeInfo) :
    s.Keeps (s.takeExchangeInfo info).1 := by
  unfold takeExchangeInfo
  split <;> exact ⟨rfl, rfl, rfl, rfl⟩

/-- The reply to a submission as an observation of the order. -/
def placedUpdate (reply : OrderReply) (clientId : String) (state : OrderState) (sequence : Nat)
    (time : Timestamp) : OrderUpdate :=
  { clientId, exchangeId := some reply.id, state, executed := reply.executed, sequence, time }

/-- What an observation of a submitted order leads to. -/
def takeUpdate (s : Session) (u : OrderUpdate) : Session × Except GatewayError InFlightOrder :=
  match s.applyUpdate u with
  | (s, .error e) => (s, .error e)
  | (s, .ok _) =>
    match s.tracker.get? u.clientId with
    | some o => (s, .ok o)
    | none => (s, .error (.unknownOrder u.clientId))

/-- The time of what a reply about an order reports: its own, or the exchange's time now. -/
def replyTime (s : Session) (now : Timestamp) (reply : OrderReply) : Checked Timestamp :=
  match reply.updatedAt <|> reply.createdAt with
  | some t => .ok t
  | none => s.serverNow now

/-- The reply to a submission is taken in as an observation of the order, if its status is known. -/
theorem takePlaced_eq (s : Session) (now : Timestamp) (clientId : String) (sequence : Nat)
    (reply : OrderReply) : s.takePlaced now clientId sequence reply =
      match Status.normalize reply.status with
      | .error e => .ok (s, .error e)
      | .ok state => do
        return s.takeUpdate (placedUpdate reply clientId state sequence
          (← s.replyTime now reply)) := by
  have taken : ∀ u : OrderUpdate, (do
      match s.applyUpdate u with
      | (s, .error e) => return (s, .error e)
      | (s, .ok _) =>
        match s.tracker.get? u.clientId with
        | some o => return (s, .ok o)
        | none => return (s, .error (.unknownOrder u.clientId)) :
      Checked (Session × Except GatewayError InFlightOrder)) = .ok (s.takeUpdate u) := by
    intro u
    unfold takeUpdate
    split
    · rfl
    · split <;> rfl
  unfold takePlaced replyTime
  cases Status.normalize reply.status with
  | error error => rfl
  | ok state =>
    simp only
    cases reply.updatedAt <|> reply.createdAt with
    | some time => exact taken _
    | none => exact congrArg (s.serverNow now >>= ·) (funext fun time => taken _)

/-- All that the reply to a submission can do: its status is not known, or it is taken in as an
observation of the order. -/
theorem takePlaced_cases {clientId : String} {sequence : Nat} {reply : OrderReply}
    {r : Except GatewayError InFlightOrder}
    (h : s.takePlaced now clientId sequence reply = .ok (s', r)) :
    (∃ error, Status.normalize reply.status = .error error ∧ s' = s ∧ r = .error error) ∨
      ∃ state time, Status.normalize reply.status = .ok state ∧
        s.takeUpdate (placedUpdate reply clientId state sequence time) = (s', r) := by
  rw [takePlaced_eq] at h
  split at h
  · rename_i error hstatus
    cases h
    exact Or.inl ⟨error, hstatus, rfl, rfl⟩
  · rename_i state hstatus
    obtain ⟨time, _, h⟩ := bind_eq_ok.mp h
    exact Or.inr ⟨state, time, hstatus, Except.ok.inj h⟩

/-- Whatever it leads to, the observation is taken in. -/
theorem takeUpdate_fst (s : Session) (u : OrderUpdate) :
    (s.takeUpdate u).1 = (s.applyUpdate u).1 := by
  unfold takeUpdate
  cases s.applyUpdate u with
  | mk s₁ result =>
    cases result with
    | error error => rfl
    | ok outcome =>
      simp only
      cases s₁.tracker.get? u.clientId <;> rfl

theorem onlyOrders_takePlaced {clientId : String} {sequence : Nat} {reply : OrderReply}
    {r : Except GatewayError InFlightOrder}
    (h : s.takePlaced now clientId sequence reply = .ok (s', r)) : s.OnlyOrders s' := by
  rcases takePlaced_cases h with ⟨_, _, rfl, _⟩ | ⟨state, time, _, htaken⟩
  · exact OnlyOrders.refl _
  · have hupdated := takeUpdate_fst s (placedUpdate reply clientId state sequence time)
    rw [htaken] at hupdated
    rw [show s' = _ from hupdated]
    exact onlyOrders_applyUpdate s _

/-- All that the reply to a cancellation can do: it is an error, or the state that is answered is
taken in as a report. -/
theorem takeCancelled_cases {exchangeId : String} {sequence : Nat} {reply : CancelReply}
    {r : Except GatewayError OrderState}
    (h : s.takeCancelled now exchangeId sequence reply = .ok (s', r)) :
    (∃ error, r = .error error ∧ s' = s) ∨
      ∃ report : OrderReport, report.exchangeId = exchangeId ∧ report.executed = none ∧
        report.sequence = sequence ∧ r = .ok report.state ∧ s' = s.observe report := by
  unfold takeCancelled at h
  split at h
  · rename_i error _
    cases h
    exact Or.inl ⟨error, rfl, rfl⟩
  · obtain ⟨time, _, h⟩ := bind_eq_ok.mp h
    cases h
    exact Or.inr ⟨_, rfl, rfl, rfl, rfl, rfl⟩

theorem onlyOrders_takeCancelled {exchangeId : String} {sequence : Nat} {reply : CancelReply}
    {r : Except GatewayError OrderState}
    (h : s.takeCancelled now exchangeId sequence reply = .ok (s', r)) : s.OnlyOrders s' := by
  rcases takeCancelled_cases h with ⟨_, _, rfl⟩ | ⟨report, _, _, _, _, rfl⟩
  · exact OnlyOrders.refl _
  · exact onlyOrders_observe s report

/-- All that the reply about one order can do: it is an error, or the report that is answered is
taken in. -/
theorem takeStatus_cases {sequence : Nat} {reply : OrderReply} {r : Except GatewayError OrderReport}
    (h : s.takeStatus now sequence reply = .ok (s', r)) :
    (∃ error, r = .error error ∧ s' = s) ∨
      ∃ report : OrderReport, report.sequence = sequence ∧ r = .ok report ∧
        s' = s.observe report := by
  unfold takeStatus at h
  obtain ⟨receivedAt, _, h⟩ := bind_eq_ok.mp h
  split at h
  · rename_i error _
    cases h
    exact Or.inl ⟨error, rfl, rfl⟩
  · cases h
    exact Or.inr ⟨_, rfl, rfl, rfl⟩

theorem onlyOrders_takeStatus {sequence : Nat} {reply : OrderReply}
    {r : Except GatewayError OrderReport}
    (h : s.takeStatus now sequence reply = .ok (s', r)) : s.OnlyOrders s' := by
  rcases takeStatus_cases h with ⟨_, _, rfl⟩ | ⟨report, _, _, rfl⟩
  · exact OnlyOrders.refl _
  · exact onlyOrders_observe s report

theorem sequence_reportOf {sequence : Nat} {state : OrderState} {e : OrderListEntry}
    {report : OrderReport} (h : s.reportOf now sequence state e = .ok report) :
    report.sequence = sequence := by
  obtain ⟨executed, _, h⟩ := bind_eq_ok.mp h
  cases h
  rfl

theorem exchangeId_reportOf {sequence : Nat} {state : OrderState} {e : OrderListEntry}
    {report : OrderReport} (h : s.reportOf now sequence state e = .ok report) :
    report.exchangeId = e.id := by
  obtain ⟨executed, _, h⟩ := bind_eq_ok.mp h
  cases h
  rfl

/-- All that a list of orders can do: the entries ahead of the first whose status is not known are
taken in, and are answered if there is none such. -/
theorem takeReports_cases {sequence : Nat} {entries : List OrderListEntry}
    {r : Except GatewayError (List OrderReport)}
    (h : s.takeReports now sequence entries = .ok (s', r)) :
    ∃ heard : List OrderReport, (∀ report ∈ heard, report.sequence = sequence) ∧
      heard.map OrderReport.exchangeId =
        (entries.takeWhile OrderListEntry.hasKnownStatus).map OrderListEntry.id ∧
      s' = heard.foldl observe s ∧ (∀ reports, r = .ok reports → reports = heard) ∧
      ∀ error, r = .error error → ∃ status, error = .unrecognizedStatus status := by
  induction entries generalizing s r with
  | nil =>
    cases h
    refine ⟨[], by simp, rfl, rfl, ?_, by simp⟩
    intro reports hr
    cases hr
    rfl
  | cons e rest ih =>
    unfold takeReports at h
    split at h
    · rename_i error hstatus
      cases h
      have hunknown : e.hasKnownStatus = false := by
        rw [OrderListEntry.hasKnownStatus, hstatus]
        rfl
      refine ⟨[], by simp, by simp [hunknown], rfl, by simp, ?_⟩
      rintro _ ⟨⟩
      exact ⟨e.status, Status.normalize_eq_error hstatus⟩
    · rename_i state hstatus
      obtain ⟨report, hreport, h⟩ := bind_eq_ok.mp h
      obtain ⟨⟨s₁, later⟩, hrest, h⟩ := bind_eq_ok.mp h
      cases h
      obtain ⟨heard, hplaces, hids, hobserved, hanswered, hfailed⟩ := ih hrest
      have hknown : e.hasKnownStatus = true := by
        rw [OrderListEntry.hasKnownStatus, hstatus]
        rfl
      refine ⟨report :: heard, ?_, ?_, hobserved, ?_, ?_⟩
      · intro report' hreport'
        rcases List.mem_cons.mp hreport' with rfl | hreport'
        · exact sequence_reportOf hreport
        · exact hplaces report' hreport'
      · rw [List.takeWhile_cons_of_pos hknown, List.map_cons, List.map_cons, hids,
          exchangeId_reportOf hreport]
      · intro reports hr
        cases later with
        | error error => cases hr
        | ok later =>
          cases hr
          rw [hanswered later rfl]
      · intro error hr
        cases later with
        | error error' =>
          cases hr
          exact hfailed error rfl
        | ok later => cases hr

theorem onlyOrders_foldl_observe (s : Session) (reports : List OrderReport) :
    s.OnlyOrders (reports.foldl observe s) := by
  induction reports generalizing s with
  | nil => exact OnlyOrders.refl s
  | cons report rest ih => exact (onlyOrders_observe s report).trans (ih _)

theorem onlyOrders_takeOrderList {sequence : Nat} {e : Errand} {body : String}
    {r : Except GatewayError Answer}
    (h : s.takeOrderList now sequence e body = .ok (s', r)) : s.OnlyOrders s' := by
  rcases taking_cases h with ⟨_, _, rfl, _⟩ | ⟨entries, _, h⟩
  · exact OnlyOrders.refl _
  · obtain ⟨receivedAt, _, h⟩ := bind_eq_ok.mp h
    obtain ⟨⟨s₁, reports⟩, hreports, h⟩ := bind_eq_ok.mp h
    cases h
    obtain ⟨heard, _, _, rfl, _⟩ := takeReports_cases hreports
    exact onlyOrders_foldl_observe s heard

/-- Executions take nothing from a session but their sides. -/
theorem fillsOf_congr {s₁ s₂ : Session} (h : ∀ e, s₁.sideOf e = s₂.sideOf e) (pair : String)
    (entries : List TradeEntry) : s₁.fillsOf pair entries = s₂.fillsOf pair entries := by
  induction entries with
  | nil => rfl
  | cons e rest ih => simp only [fillsOf, h e, ih]

/-- All that a reply can change: what is known of orders, the clock, or symbols and rules. -/
theorem takeBody_cases {sequence : Nat} {e : Errand} {body : String}
    {r : Except GatewayError Answer} (h : s.takeBody now sequence e body = .ok (s', r)) :
    s.OnlyOrders s' ∨
      (∃ sentAt server, e = .syncTime sentAt ∧ serverTimeOf e body = .ok server ∧
        s' = { s with clock := .observed server sentAt now }) ∨
      ∃ info, e = .exchangeInfo ∧ s' = (s.takeExchangeInfo info).1 := by
  cases e with
  | syncTime sentAt =>
    rcases taking_cases h with ⟨_, _, rfl, _⟩ | ⟨server, hserver, h⟩
    · exact Or.inl (OnlyOrders.refl _)
    · cases h
      exact Or.inr (Or.inl ⟨sentAt, server, rfl, hserver, rfl⟩)
  | exchangeInfo =>
    rcases taking_cases h with ⟨_, _, rfl, _⟩ | ⟨info, _, h⟩
    · exact Or.inl (OnlyOrders.refl _)
    · cases h
      exact Or.inr (Or.inr ⟨info, rfl, rfl⟩)
  | place order symbol =>
    refine Or.inl ?_
    rcases taking_cases h with ⟨_, _, rfl, _⟩ | ⟨reply, _, h⟩
    · exact OnlyOrders.refl _
    · obtain ⟨⟨s₁, placed⟩, hplaced, h⟩ := bind_eq_ok.mp h
      cases h
      exact onlyOrders_takePlaced hplaced
  | cancel exchangeId =>
    refine Or.inl ?_
    rcases taking_cases h with ⟨_, _, rfl, _⟩ | ⟨reply, _, h⟩
    · exact OnlyOrders.refl _
    · obtain ⟨⟨s₁, state⟩, hcancelled, h⟩ := bind_eq_ok.mp h
      cases h
      exact onlyOrders_takeCancelled hcancelled
  | status exchangeId =>
    refine Or.inl ?_
    rcases taking_cases h with ⟨_, _, rfl, _⟩ | ⟨reply, _, h⟩
    · exact OnlyOrders.refl _
    · obtain ⟨⟨s₁, report⟩, hstatus, h⟩ := bind_eq_ok.mp h
      cases h
      exact onlyOrders_takeStatus hstatus
  | openOrders => exact Or.inl (onlyOrders_takeOrderList h)
  | allOrders => exact Or.inl (onlyOrders_takeOrderList h)
  | _ =>
    cases h
    exact Or.inl (OnlyOrders.refl s)

/-- Replies change what is known of the exchange. -/
theorem keeps_takeBody {sequence : Nat} {e : Errand} {body : String}
    {r : Except GatewayError Answer} (h : s.takeBody now sequence e body = .ok (s', r)) :
    s.Keeps s' := by
  rcases takeBody_cases h with horders | ⟨_, _, _, _, rfl⟩ | ⟨info, _, rfl⟩
  · exact horders.keeps
  · exact ⟨rfl, rfl, rfl, rfl⟩
  · exact keeps_takeExchangeInfo s info

/-- All that a failure after sending can do: it is left open what became of the order, if there is
one, or the order is observed to have failed. -/
theorem afterFailure_cases {now : Readings} {e : Errand} {error : GatewayError}
    (h : s.afterFailure now e error = .ok s') :
    (s' = s ∧ (e.submitted.isSome → error.mayHaveBeenAccepted = true)) ∨
      ∃ order u, e.submitted = some order ∧ error.mayHaveBeenAccepted = false ∧
        u.clientId = order.clientId ∧ u.exchangeId = none ∧ u.state = .failed ∧
        u.sequence = (s.nextSequence now.sequencer).2 ∧
        s' = ((s.nextSequence now.sequencer).1.applyUpdate u).1 := by
  unfold afterFailure at h
  split at h
  · rename_i order hsubmitted
    split at h
    · rename_i hopen
      cases h
      exact Or.inl ⟨rfl, fun _ => hopen⟩
    · rename_i hopen
      obtain ⟨time, _, h⟩ := bind_eq_ok.mp h
      cases h
      exact Or.inr ⟨order, _, hsubmitted, Bool.eq_false_iff.mpr hopen, rfl, rfl, rfl, rfl, rfl⟩
  · rename_i hsubmitted
    cases h
    exact Or.inl ⟨rfl, fun hsome => by rw [hsubmitted] at hsome; cases hsome⟩

theorem onlyOrders_afterFailure {now : Readings} {e : Errand} {error : GatewayError}
    (h : s.afterFailure now e error = .ok s') : s.OnlyOrders s' := by
  rcases afterFailure_cases h with ⟨rfl, _⟩ | ⟨_, u, _, _, _, _, _, _, rfl⟩
  · exact OnlyOrders.refl s'
  · exact (onlyOrders_nextSequence s now.sequencer).trans (onlyOrders_applyUpdate _ u)

/-- Settling a call changes nothing but the budget. -/
theorem changes_settle (s : Session) (now : Timestamp) (r : Reservation)
    (delivery : Http.Delivery) : ∃ limiter, (s.settle now r delivery).1 = { s with limiter } := by
  cases delivery with
  | reply response => exact ⟨_, rfl⟩
  | timedOut => exact ⟨_, rfl⟩
  | failed error => cases error <;> exact ⟨_, rfl⟩

/-- All that finishing a call can do: the call is settled, and then its failure is noted or the body
of its reply is taken in. -/
theorem finish_cases {now : Readings} {p : Pending} {delivery : Http.Delivery}
    {r : Except GatewayError Answer} (h : s.finish now p delivery = .ok (s', r)) : ∃ s₁ settled,
      s.settle now.limiter p.reservation delivery = (s₁, settled) ∧ s₁.Keeps s' ∧
      ((∃ error, settled = .error error ∧ r = .error error ∧
          s₁.afterFailure now p.errand error = .ok s') ∨
        ∃ body, settled = .ok body ∧
          s₁.takeBody now.record p.sequence p.errand body = .ok (s', r)) := by
  unfold finish at h
  split at h
  · rename_i s₁ error hsettle
    obtain ⟨s₂, hafter, h⟩ := bind_eq_ok.mp h
    cases h
    exact ⟨s₁, _, hsettle, (onlyOrders_afterFailure hafter).keeps, Or.inl ⟨error, rfl, rfl, hafter⟩⟩
  · rename_i s₁ body hsettle
    exact ⟨s₁, _, hsettle, keeps_takeBody h, Or.inr ⟨body, rfl, h⟩⟩

/-- Finishing a call changes neither the settings nor the credentials. -/
theorem settings_of_finish {now : Readings} {p : Pending} {delivery : Http.Delivery}
    {r : Except GatewayError Answer}
    (h : s.finish now p delivery = .ok (s', r)) :
    s'.config = s.config ∧ s'.authenticator = s.authenticator := by
  obtain ⟨s₁, settled, hsettle, hkeeps, _⟩ := finish_cases h
  obtain ⟨limiter, hlimiter⟩ := s.changes_settle now.limiter p.reservation delivery
  rw [hsettle] at hlimiter
  rw [hkeeps.config, hkeeps.authenticator, show s₁ = _ from hlimiter]
  exact ⟨rfl, rfl⟩

end Session

end SpotGateway
