import SpotGateway.Proofs.Session.Submission

/-!
# An order is on record exactly if it is sent

A submission that does not get as far as the transport leaves no trace among the orders; one that
does finds its order on record already, as it is going to be known to the exchange.

* `OrderTracker.track_of_unnamed` — tracking an order that has no exchange id;
* `OrderRequest.Becomes` — the order that is going to be submitted;
* `Session.method_of_start` — submissions are the only requests that post;
* `Session.tracker_of_unsent` — a submission that is not sent;
* `Session.Registers`, `Session.registers_of_sent` — a submission that is sent;
* `Session.registered_of_start` — both, for any call in any session.
-/

set_option autoImplicit false

namespace SpotGateway

/-- All that tracking an order without an exchange id can do: the order is filed and nothing else
happens, or it is refused and nothing happens at all. -/
theorem OrderTracker.track_of_unnamed (t : OrderTracker) {o : InFlightOrder}
    (h : o.exchangeId = none) :
    (t.get? o.clientId = none ∧
        t.track o = ({ t with orders := t.orders.set o.clientId o }, .ok ())) ∨
      ∃ error, t.track o = (t, .error error) := by
  have hindex : index t.exchangeIds o = t.exchangeIds := by
    rw [index, h]
  rcases track_cases t o with ⟨hvacant, htrack⟩ | ⟨_, _, htrack⟩
  · rw [hindex] at htrack
    exact Or.inl ⟨hvacant, htrack⟩
  · rw [hindex] at htrack
    exact Or.inr ⟨_, htrack⟩

/-- The order is the one that is asked for, about to be submitted: nothing was heard of it, and its
amount and price are on the grid of the rule. -/
structure OrderRequest.Becomes (request : OrderRequest) (rule : Option TradingRule)
    (o : InFlightOrder) : Prop where
  state : o.state = .pendingCreate
  exchangeId : o.exchangeId = none
  pair : o.pair = request.pair
  side : o.side = request.side
  kind : o.kind = request.kind
  rounded : request.RoundsTo rule o.amount o.price

/-- The requests that post are those that submit an order. -/
theorem Errand.method_eq_post_iff {e : Errand} :
    e.request.method = .post ↔ ∃ o symbol, e = .place o symbol := by
  cases e with
  | place o symbol => exact ⟨fun _ => ⟨o, symbol, rfl⟩, fun _ => rfl⟩
  | _ =>
    constructor
    · intro h
      cases h
    · rintro ⟨o, symbol, h⟩
      cases h

namespace Session

variable {s s' : Session} {now : Timestamp} {expired : Bool}

/-- A plan to submit an order comes from a call that places one. -/
theorem place_of_plan {call : Call} {o : InFlightOrder} {symbol : String}
    (h : s.plan now call = .ok (.ok (.place o symbol))) :
    ∃ request nonce, call = .place request nonce := by
  rcases plan_cases h with ⟨request, nonce, rfl, _⟩ | ⟨_, hnone, _⟩
  · exact ⟨request, nonce, rfl⟩
  · cases hnone

/-- Nothing but the submission of an order posts. -/
theorem method_of_start {now : Readings} {call : Call} {p : Pending}
    (h : s.start now expired call = .ok (s', .ok p)) :
    p.request.method = .post ↔ ∃ request nonce, call = .place request nonce := by
  have planned := plan_of_start h
  obtain ⟨headers, hrequest⟩ := request_of_start h
  have hmethod : p.request.method = .post ↔ ∃ o symbol, p.errand = .place o symbol := by
    rw [hrequest]
    exact Errand.method_eq_post_iff
  rw [hmethod]
  constructor
  · rintro ⟨o, symbol, herrand⟩
    exact place_of_plan (herrand ▸ planned)
  · rintro ⟨order, nonce, rfl⟩
    obtain ⟨rounded, symbol, clientId, createdAt, _, _, _, _, hplace⟩ := planOrder_eq_ok planned
    exact ⟨_, symbol, hplace⟩

/-- The order that is going to be submitted is the one that is asked for. -/
theorem becomes_of_plan {request : OrderRequest} {nonce : String} {errand : Errand}
    (h : s.plan now (.place request nonce) = .ok (.ok errand)) :
    ∃ o symbol, errand = .place o symbol ∧ request.Becomes (s.rule? request.pair) o := by
  obtain ⟨rounded, symbol, clientId, createdAt, hquantize, _, _, _, rfl⟩ := planOrder_eq_ok h
  obtain ⟨hrounds, hpair, hside, hkind⟩ := quantize_eq_ok hquantize
  exact ⟨_, symbol, rfl, ⟨rfl, rfl, hpair, hside, hkind, hrounds⟩⟩

/-- A submission that is not sent leaves orders, index and sequence as they are. -/
theorem tracker_of_unsent {now : Readings} {request : OrderRequest} {nonce : String}
    {error : GatewayError}
    (h : s.start now expired (.place request nonce) = .ok (s', .error error)) :
    s'.tracker = s.tracker := by
  cases started_of_start h with
  | refused error planned unchanged => rw [unchanged]
  | throttled errand limiter refusal planned reserved changed => rw [changed]
  | late errand limiter reservation planned reserved passed changed =>
    rw [changed]
    rfl
  | untracked errand limiter reservation order tracker error planned reserved intime submitted
      tracked changed =>
    obtain ⟨o, symbol, rfl, hbecomes⟩ := becomes_of_plan planned
    cases submitted
    -- the order has no exchange id, so its refusal does not index it
    rcases s.tracker.track_of_unnamed hbecomes.exchangeId with ⟨_, htrack⟩ | ⟨_, htrack⟩
    · rw [tracked] at htrack
      cases htrack
    · rw [tracked] at htrack
      cases htrack
      rw [changed]
      rfl

/-- The order that is asked for is on record under the client id of the document that submits it;
besides it, only the sequence has moved on. -/
structure Registers (s : Session) (now : Timestamp) (request : OrderRequest) (s' : Session)
    (sent : OrderBody) (o : InFlightOrder) : Prop where
  tracked : s'.tracker.get? sent.clientId = some o
  clientId : o.clientId = sent.clientId
  order : request.Becomes (s.rule? request.pair) o
  written : sent = o.submission sent.market
  vacant : s.tracker.get? sent.clientId = none
  others : s'.tracker = {
    orders := s.tracker.orders.set sent.clientId o
    exchangeIds := s.tracker.exchangeIds
    sequencer := (s.tracker.sequencer.next now).1 }

/-- A submission that is sent finds its order on record. -/
theorem registers_of_sent {now : Readings} {request : OrderRequest} {nonce : String} {p : Pending}
    (h : s.start now expired (.place request nonce) = .ok (s', .ok p)) :
    p.request.path = Exchange.Path.order ∧
      ∃ sent o, p.request.Submits sent ∧ s.Registers now.sequencer request s' sent o := by
  cases started_of_start h with
  | sent errand limiter reservation request' tracker planned reserved requested intime tracked
      changed =>
    obtain ⟨o, symbol, rfl, hbecomes⟩ := becomes_of_plan planned
    obtain ⟨headers, rfl⟩ := headers_requestOf requested
    have hfiled : s.tracker.track o = (tracker, .ok ()) := tracked
    rcases s.tracker.track_of_unnamed hbecomes.exchangeId with ⟨hvacant, htrack⟩ | ⟨_, htrack⟩
    · rw [htrack] at hfiled
      cases hfiled
      refine ⟨rfl, o.submission symbol, o, .of_body rfl, ?_⟩
      exact {
        tracked := by
          rw [changed]
          exact Keyed.get?_set_self _ _ _
        clientId := rfl
        order := hbecomes
        written := rfl
        vacant := hvacant
        others := by
          rw [changed]
          rfl }
    · rw [htrack] at hfiled
      cases hfiled

/-- **No order is sent that is not on record, and none is on record that was not sent.**  In any
session, a submission that fails before it is handed to the transport leaves orders, index and
sequence exactly as they were.  Submissions are the only requests that post.  When one is handed to the
transport its body is a document that says the client id, the market, the side, the amount, the price
and the kind of an order, and this order is on record under that client id: waiting and without an
exchange id, on the side, of the kind and for the pair that were asked for, with amount and price on
the grid of the pair.  No order had that client id before, and no other order is touched. -/
theorem registered_of_start (s : Session) (now : Readings) (expired : Bool) :
    (∀ request nonce s' error,
      s.start now expired (.place request nonce) = .ok (s', .error error) →
        s'.tracker = s.tracker) ∧
    ∀ call s' p, s.start now expired call = .ok (s', .ok p) →
      (p.request.method = .post ↔ ∃ request nonce, call = .place request nonce) ∧
      ∀ request nonce, call = .place request nonce →
        p.request.path = Exchange.Path.order ∧
        ∃ sent o, p.request.Submits sent ∧ s.Registers now.sequencer request s' sent o := by
  refine ⟨fun request nonce s' error h => tracker_of_unsent h, ?_⟩
  intro call s' p h
  refine ⟨method_of_start h, ?_⟩
  rintro request nonce rfl
  exact registers_of_sent h

/-- An order of one unit: too late, it leaves no trace, and in time it is on record as it is sent. -/
theorem registered_oneUnit :
    ∃ (s s₁ s₂ : Session) (p : Pending) (sent : OrderBody) (o : InFlightOrder),
    Session.create .default ⟨"key", "secret", none⟩ = .ok s ∧
    s.learnPair.start (.still ⟨0, false⟩) true (.place oneUnit "0123456789abcdef") =
      .ok (s₁, .error (.deadlineExceeded false)) ∧
    s₁.tracker = s.learnPair.tracker ∧
    s₁.start (.still ⟨0, false⟩) false (.place oneUnit "0123456789abcdef") = .ok (s₂, .ok p) ∧
    p.request.method = .post ∧ p.request.Submits sent ∧
    s₂.tracker.get? sent.clientId = some o ∧ o.state = .pendingCreate ∧ o.exchangeId = none ∧
    o.pair = "ETH-XLM" ∧ o.side = .buy ∧ o.kind = .market := by
  obtain ⟨s, s₁, s₂, p, hs, hlate, hsent⟩ : ∃ s s₁ s₂ p,
      Session.create .default ⟨"key", "secret", none⟩ = .ok s ∧
      s.learnPair.start (.still ⟨0, false⟩) true (.place oneUnit "0123456789abcdef") =
        .ok (s₁, .error (.deadlineExceeded false)) ∧
      s₁.start (.still ⟨0, false⟩) false (.place oneUnit "0123456789abcdef") = .ok (s₂, .ok p) :=
    ⟨_, _, _, _, rfl, rfl, rfl⟩
  have hnone := (registered_of_start s.learnPair (.still ⟨0, false⟩) true).1 _ _ _ _ hlate
  obtain ⟨hpost, hrecord⟩ := (registered_of_start s₁ (.still ⟨0, false⟩) false).2 _ _ _ hsent
  obtain ⟨_, sent, o, hbody, hregisters⟩ := hrecord _ _ rfl
  exact ⟨s, s₁, s₂, p, sent, o, hs, hlate, hnone, hsent, hpost.mpr ⟨_, _, rfl⟩, hbody,
    hregisters.tracked, hregisters.order.state, hregisters.order.exchangeId,
    hregisters.order.pair, hregisters.order.side, hregisters.order.kind⟩

end Session

end SpotGateway
