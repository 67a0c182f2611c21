import SpotGateway.Proofs.Order.Tracking
import SpotGateway.Proofs.Session.Steps
import SpotGateway.Proofs.Wire.OrderDocument

/-!
# Submissions that fail

An order whose submission fails stays tracked.  It is marked failed if the exchange certainly did
not take it, and otherwise waits to be reconciled.

* `Http.Delivery.rejects` — the exchange certainly did not take the order;
* `Http.Delivery.disowns` — a failure of the exchange that names an order it does not know;
* `GatewayError.mayHaveBeenAccepted_ofResponse` — the two classifications of a reply, one after the
  other;
* `Session.Submitted` — an order that was sent and nothing was heard of;
* `Session.state_of_failed_submission` — where an order stands after its submission failed.
-/

set_option autoImplicit false

namespace SpotGateway

/-! ## What a delivery says about an order -/

namespace Http

/-- The code in the body of the reply is that of an order the exchange does not know. -/
def Response.namesUnknownOrder (r : Response) : Bool :=
  let code := (GatewayError.Complaint.read r.body).1
  code = some Exchange.orderNotExistCode || code = some Exchange.unknownOrderCode

namespace Delivery

/-- The exchange certainly did not take what was sent: it did not get it, or said no by a status
below 500. -/
def rejects : Delivery → Bool
  | .failed (.connect _) => true
  | .reply r => !r.isSuccess && r.status < 500
  | _ => false

/-- A status from 500 on with the code of an order that the exchange does not know. -/
def disowns : Delivery → Bool
  | .reply r => 500 ≤ r.status && r.namesUnknownOrder
  | _ => false

end Delivery

end Http

/-- A reply leaves it open whether an order was taken exactly if its status is 500 or more and its
code is not that of an order the exchange does not know. -/
theorem GatewayError.mayHaveBeenAccepted_ofResponse (r : Http.Response) (now : Timestamp) :
    (ofResponse r now).mayHaveBeenAccepted = (500 ≤ r.status && !r.namesUnknownOrder) := by
  unfold ofResponse Http.Response.namesUnknownOrder
  generalize Complaint.read r.body = complaint
  obtain ⟨code, text⟩ := complaint
  simp only
  split
  · rename_i hstatus
    have : ¬ 500 ≤ r.status := by omega
    simp [mayHaveBeenAccepted, this]
  split
  · rename_i hstatus
    simp [mayHaveBeenAccepted, hstatus]
  split
  · rename_i hcode
    rcases hcode with hcode | hcode <;> simp [mayHaveBeenAccepted, hcode]
  · rename_i hcode
    rw [not_or] at hcode
    simp [mayHaveBeenAccepted, hcode.1, hcode.2]

/-! ## The order of a submission -/

namespace Session

variable {s s' : Session} {now : Timestamp}

/-- An order that was sent and that nothing was heard of. -/
structure Submitted (s : Session) (clientId : String) (o : InFlightOrder) : Prop where
  tracked : s.tracker.get? clientId = some o
  clientId : o.clientId = clientId
  state : o.state = .pendingCreate
  exchangeId : o.exchangeId = none
  lastSequence : o.lastSequence = none

/-- A submission that is sent carries the client id of the order that is tracked. -/
theorem submitted_of_start {now : Readings} {expired : Bool} {order : OrderRequest} {nonce : String}
    {p : Pending} (h : s.start now expired (.place order nonce) = .ok (s', .ok p)) :
    ∃ o symbol, p.errand = .place o symbol ∧ p.request.Submits (o.submission symbol) ∧
      s'.Submitted o.clientId o := by
  cases started_of_start h with
  | sent errand limiter reservation request tracker planned reserved requested intime tracked
      changed =>
    obtain ⟨rounded, symbol, clientId, createdAt, _, _, _, _, rfl⟩ := planOrder_eq_ok planned
    obtain ⟨headers, hrequest⟩ := headers_requestOf requested
    have hget := OrderTracker.get?_of_track (congrArg Prod.snd tracked)
    rw [tracked] at hget
    refine ⟨_, symbol, rfl, ?_, ?_⟩
    · rw [hrequest]
      exact .of_body rfl
    · rw [changed]
      exact ⟨hget, rfl, rfl, rfl, rfl⟩

/-- Budget does not concern orders. -/
theorem tracker_settle (s : Session) (now : Timestamp) (r : Reservation)
    (delivery : Http.Delivery) : (s.settle now r delivery).1.tracker = s.tracker := by
  obtain ⟨_, hlimiter⟩ := s.changes_settle now r delivery
  rw [hlimiter]

theorem Submitted.settle {o : InFlightOrder} (h : s.Submitted o.clientId o) (now : Timestamp)
    (r : Reservation) (delivery : Http.Delivery) :
    (s.settle now r delivery).1.Submitted o.clientId o :=
  ⟨by rw [tracker_settle]; exact h.tracked, rfl, h.state, h.exchangeId, h.lastSequence⟩

/-- What a failure of a delivery leaves open about an order. -/
theorem mayHaveBeenAccepted_settle {r : Reservation} {delivery : Http.Delivery}
    {error : GatewayError} (h : (s.settle now r delivery).2 = .error error) :
    error.mayHaveBeenAccepted = !(delivery.rejects || delivery.disowns) := by
  cases delivery with
  | timedOut =>
    cases h
    rfl
  | failed failure =>
    cases h
    cases failure <;> rfl
  | reply response =>
    simp only [settle] at h
    cases hsuccess : response.isSuccess with
    | true =>
      rw [if_pos hsuccess] at h
      cases h
    | false =>
      rw [if_neg (by simp [hsuccess])] at h
      cases h
      rw [GatewayError.mayHaveBeenAccepted_ofResponse]
      simp only [Http.Delivery.rejects, Http.Delivery.disowns, hsuccess]
      by_cases hstatus : 500 ≤ response.status
      · simp [hstatus]
      · simp [hstatus]
        omega

/-- What is observed first of the order counts. -/
theorem Submitted.applyUpdate {o : InFlightOrder} (h : s.Submitted o.clientId o) {u : OrderUpdate}
    (hu : u.clientId = o.clientId) : s.applyUpdate u =
      ({ s with tracker := s.tracker.advance o u }, .ok (.applied .pendingCreate u.state)) := by
  have before : o.Before u.sequence := by
    intro last hlast
    rw [h.lastSequence] at hlast
    cases hlast
  have ongoing : o.isTerminal = false := by
    rw [InFlightOrder.isTerminal, h.state]
    rfl
  have agrees : o.Agrees u := by
    intro known reported hknown _
    rw [h.exchangeId] at hknown
    cases hknown
  have happly := OrderTracker.apply_of_counts (hu ▸ h.tracked) before ongoing agrees
  rw [Session.applyUpdate, happly, h.state]

/-- The order after a failure of its delivery: failed, if nothing is left open. -/
theorem Submitted.afterFailure {now : Readings} {o : InFlightOrder}
    (h : s.Submitted o.clientId o) {symbol : String} {error : GatewayError}
    (hafter : s.afterFailure now (.place o symbol) error = .ok s') :
    ∃ o', s'.tracker.get? o.clientId = some o' ∧ o'.clientId = o.clientId ∧
      o'.state = if error.mayHaveBeenAccepted then .pendingCreate else .failed := by
  rcases afterFailure_cases hafter with
    ⟨rfl, hopen⟩ | ⟨order, u, hsubmitted, hclosed, hu, _, hstate, _, rfl⟩
  · exact ⟨o, h.tracked, rfl, by rw [hopen rfl, h.state]; rfl⟩
  · cases hsubmitted
    have hwaiting : (s.nextSequence now.sequencer).1.Submitted o.clientId o :=
      ⟨h.tracked, rfl, h.state, h.exchangeId, h.lastSequence⟩
    refine ⟨o.advance u, ?_, rfl, by rw [hclosed]; exact hstate⟩
    rw [hwaiting.applyUpdate hu, ← hu]
    exact OrderTracker.get?_advance _ o u

theorem Submitted.takeUpdate {o : InFlightOrder} (h : s.Submitted o.clientId o) {u : OrderUpdate}
    (hu : u.clientId = o.clientId) :
    s.takeUpdate u = ({ s with tracker := s.tracker.advance o u }, .ok (o.advance u)) := by
  rw [Session.takeUpdate, h.applyUpdate hu]
  simp only [OrderTracker.get?_advance]

/-- The order after a reply that could not be taken in: it stays as it is. -/
theorem Submitted.takeBody {o : InFlightOrder} (h : s.Submitted o.clientId o) {symbol body : String}
    {sequence : Nat} {error : GatewayError}
    (hbody : s.takeBody now sequence (.place o symbol) body = .ok (s', .error error)) :
    s'.tracker.get? o.clientId = some o := by
  rcases taking_cases hbody with ⟨_, _, rfl, _⟩ | ⟨reply, _, hreply⟩
  · exact h.tracked
  · obtain ⟨⟨s₁, placed⟩, hplaced, hreply⟩ := bind_eq_ok.mp hreply
    cases placed with
    | ok o' => cases hreply
    | error e =>
      cases hreply
      rcases takePlaced_cases hplaced with ⟨_, _, rfl, _⟩ | ⟨state, time, _, htaken⟩
      · exact h.tracked
      · rw [h.takeUpdate rfl] at htaken
        cases htaken

/-- A body to take in is that of a successful reply. -/
theorem reply_of_settle {r : Reservation} {delivery : Http.Delivery} {body : String}
    (h : (s.settle now r delivery).2 = .ok body) :
    ∃ response, delivery = .reply response ∧ response.isSuccess = true ∧ response.body = body := by
  cases delivery with
  | timedOut => cases h
  | failed failure => cases h
  | reply response =>
    simp only [settle] at h
    cases hsuccess : response.isSuccess with
    | true =>
      rw [if_pos hsuccess] at h
      exact ⟨response, rfl, hsuccess, Except.ok.inj h⟩
    | false =>
      rw [if_neg (by simp [hsuccess])] at h
      cases h

/-- A delivery with a body to take in says nothing against the order. -/
theorem not_rejects_of_settle {r : Reservation} {delivery : Http.Delivery} {body : String}
    (h : (s.settle now r delivery).2 = .ok body) :
    (delivery.rejects || delivery.disowns) = false := by
  obtain ⟨response, rfl, hsuccess, _⟩ := reply_of_settle h
  have hrange := hsuccess
  simp only [Http.Response.isSuccess, Bool.and_eq_true, decide_eq_true_eq] at hrange
  have : ¬ 500 ≤ response.status := by omega
  simp [Http.Delivery.rejects, Http.Delivery.disowns, hsuccess, this]

/-- While the exchange's time can be told, a call whose delivery failed can be finished. -/
theorem finish_isOk_of_settle {now : Readings} {p : Pending} {delivery : Http.Delivery}
    {error : GatewayError} {t : Timestamp}
    (h : (s.settle now.limiter p.reservation delivery).2 = .error error)
    (ht : s.serverNow now.record = .ok t) :
    ∃ s', s.finish now p delivery = .ok (s', .error error) := by
  have hclock : (s.settle now.limiter p.reservation delivery).1.serverNow now.record = .ok t := by
    obtain ⟨_, hlimiter⟩ := s.changes_settle now.limiter p.reservation delivery
    rw [hlimiter]
    exact ht
  unfold finish
  cases hsettle : s.settle now.limiter p.reservation delivery with
  | mk s₁ settled =>
    rw [hsettle] at h hclock
    simp only at h hclock
    subst h
    simp only [Session.afterFailure]
    split
    · split
      · exact ⟨_, rfl⟩
      · rw [markFailed, hclock]
        exact ⟨_, rfl⟩
    · exact ⟨_, rfl⟩

/-- Where an order stands after its submission failed. -/
theorem Submitted.finish {now : Readings} {o : InFlightOrder} (h : s.Submitted o.clientId o)
    {symbol : String} {p : Pending} (hp : p.errand = .place o symbol) {delivery : Http.Delivery}
    {error : GatewayError} (hfinish : s.finish now p delivery = .ok (s', .error error)) :
    ∃ o', s'.tracker.get? o.clientId = some o' ∧ o'.clientId = o.clientId ∧
      o'.state = if delivery.rejects || delivery.disowns then .failed else .pendingCreate := by
  obtain ⟨s₁, settled, hsettle, _, hcases⟩ := finish_cases hfinish
  have hsubmitted := h.settle now.limiter p.reservation delivery
  rw [hsettle] at hsubmitted
  rcases hcases with ⟨e, rfl, _, hafter⟩ | ⟨body, rfl, hbody⟩
  · rw [hp] at hafter
    obtain ⟨o', hget, hid, hstate⟩ := hsubmitted.afterFailure hafter
    have hopen : e.mayHaveBeenAccepted = !(delivery.rejects || delivery.disowns) :=
      mayHaveBeenAccepted_settle (by rw [hsettle])
    refine ⟨o', hget, hid, hstate.trans ?_⟩
    rw [hopen]
    cases delivery.rejects || delivery.disowns <;> rfl
  · rw [hp] at hbody
    have hnot : (delivery.rejects || delivery.disowns) = false :=
      not_rejects_of_settle (by rw [hsettle])
    refine ⟨o, hsubmitted.takeBody hbody, rfl, ?_⟩
    rw [hnot]
    exact h.state

/-- **A failed submission leaves its order tracked**, under the client id that was sent.  The order
is failed if the request did not leave, if a reply below 500 is not a success, or if a reply from
500 on names an order that the exchange does not know; otherwise it waits.  So the order is failed
exactly if the exchange certainly did not take it, but for those last replies. -/
theorem state_of_failed_submission {s₁ s₂ : Session} {now later : Readings} {expired : Bool}
    {order : OrderRequest} {nonce : String} {p : Pending} {delivery : Http.Delivery}
    {error : GatewayError} (hstart : s.start now expired (.place order nonce) = .ok (s₁, .ok p))
    (hfinish : s₁.finish later p delivery = .ok (s₂, .error error)) :
    ∃ (sent : OrderBody) (o : InFlightOrder), p.request.Submits sent ∧
      s₂.tracker.get? sent.clientId = some o ∧ o.clientId = sent.clientId ∧
      o.state = (if delivery.rejects || delivery.disowns then .failed else .pendingCreate) ∧
      ((o.state = .failed ↔ delivery.rejects = true) ∧
        (delivery.rejects = false → o.state = .pendingCreate) ↔ delivery.disowns = false) := by
  obtain ⟨o, symbol, herrand, hbody, hsubmitted⟩ := submitted_of_start hstart
  obtain ⟨o', hget, hid, hstate⟩ := hsubmitted.finish herrand hfinish
  refine ⟨o.submission symbol, o', hbody, hget, hid, hstate, ?_⟩
  have hapart : delivery.disowns = true → delivery.rejects = false := by
    intro hdisowns
    cases delivery with
    | reply r =>
      simp only [Http.Delivery.disowns, Bool.and_eq_true, decide_eq_true_eq] at hdisowns
      have : ¬ r.status < 500 := by omega
      simp [Http.Delivery.rejects, this]
    | timedOut => rfl
    | failed failure => cases hdisowns
  rw [hstate]
  cases hrejects : delivery.rejects <;> cases hdisowns : delivery.disowns <;> simp_all

/-! ## One submission -/

/-- The session has learnt of one pair that is open for trading. -/
def learnPair (s : Session) : Session :=
  (s.takeExchangeInfo
    ⟨[⟨"ETH/XLM", some "TRADING", "ETH", "XLM", none, none, none, none⟩]⟩).1

def oneUnit : OrderRequest :=
  ⟨"ETH-XLM", .buy, .market, .one, none⟩

/-- The order can be submitted. -/
theorem oneUnit_sent : ∃ s s₁ p, Session.create .default ⟨"key", "secret", none⟩ = .ok s ∧
    s.learnPair.start (.still ⟨0, false⟩) false (.place oneUnit "0123456789abcdef") =
      .ok (s₁, .ok p) ∧
    s₁.serverNow ⟨0, false⟩ = .ok ⟨0, false⟩ :=
  ⟨_, _, _, rfl, rfl, rfl⟩

theorem state_of_unconnected_submission : ∃ s s₁ s₂ p error,
    Session.create .default ⟨"key", "secret", none⟩ = .ok s ∧
    s.learnPair.start (.still ⟨0, false⟩) false (.place oneUnit "0123456789abcdef") =
      .ok (s₁, .ok p) ∧
    s₁.finish (.still ⟨0, false⟩) p (.failed (.connect "refused")) = .ok (s₂, .error error) ∧
    ∃ (sent : OrderBody) (o : InFlightOrder), p.request.Submits sent ∧
      s₂.tracker.get? sent.clientId = some o ∧ o.state = .failed := by
  obtain ⟨s, s₁, p, hs, hstart, hclock⟩ := oneUnit_sent
  have hsettle : (s₁.settle ⟨0, false⟩ p.reservation (.failed (.connect "refused"))).2 =
      .error (.transportFailure (.connect "refused")) := rfl
  obtain ⟨s₂, hfinish⟩ : ∃ s₂, s₁.finish (.still ⟨0, false⟩) p (.failed (.connect "refused")) =
      .ok (s₂, .error (.transportFailure (.connect "refused"))) :=
    finish_isOk_of_settle hsettle hclock
  obtain ⟨sent, o, hbody, hget, _, hstate, _⟩ := state_of_failed_submission hstart hfinish
  exact ⟨s, s₁, s₂, p, _, hs, hstart, hfinish, sent, o, hbody, hget, hstate⟩

/-- A failure of the exchange whose body speaks of an order that does not exist. -/
def disowningReply : Http.Response :=
  ⟨500, "\x7b\"code\":-2013,\"msg\":\"Order does not exist\"\x7d"⟩

/-- The exchange failed, and yet the order does not wait. -/
theorem failed_of_disowningReply : ∃ s s₁ s₂ p error,
    Session.create .default ⟨"key", "secret", none⟩ = .ok s ∧
    s.learnPair.start (.still ⟨0, false⟩) false (.place oneUnit "0123456789abcdef") =
      .ok (s₁, .ok p) ∧
    s₁.finish (.still ⟨0, false⟩) p (.reply disowningReply) = .ok (s₂, .error error) ∧
    500 ≤ disowningReply.status ∧ (Http.Delivery.reply disowningReply).rejects = false ∧
    ∃ (sent : OrderBody) (o : InFlightOrder), p.request.Submits sent ∧
      s₂.tracker.get? sent.clientId = some o ∧ o.state = .failed := by
  obtain ⟨s, s₁, p, hs, hstart, hclock⟩ := oneUnit_sent
  have hsettle : (s₁.settle ⟨0, false⟩ p.reservation (.reply disowningReply)).2 =
      .error (.ofResponse disowningReply ⟨0, false⟩) := rfl
  obtain ⟨s₂, hfinish⟩ : ∃ s₂, s₁.finish (.still ⟨0, false⟩) p (.reply disowningReply) =
      .ok (s₂, .error (.ofResponse disowningReply ⟨0, false⟩)) :=
    finish_isOk_of_settle hsettle hclock
  obtain ⟨o, symbol, herrand, hbody, hsubmitted⟩ := submitted_of_start hstart
  obtain ⟨o', hget, _, hstate⟩ := hsubmitted.finish herrand hfinish
  have hdisowns : (Http.Delivery.reply disowningReply).disowns = true := by decide +kernel
  have hrejects : (Http.Delivery.reply disowningReply).rejects = false := by decide
  rw [hdisowns, Bool.or_true] at hstate
  exact ⟨s, s₁, s₂, p, _, hs, hstart, hfinish, by decide, hrejects, o.submission symbol, o', hbody,
    hget, hstate⟩

end Session

end SpotGateway
