import SpotGateway.Proofs.Session.Submission

/-!
# Submissions that the exchange answers

The reply to a submission gives the order its exchange id.  The id is put on record and into the
index together with the state that the reply reports, and neither happens if its status is not
known.

* `Http.Delivery.orderReply?` — a successful reply that can be read as one about an order;
* `Session.finish_of_orderReply`, `Session.finish_isOk_of_orderReply` — how such a call is finished;
* `Session.Finds` — an order has an exchange id and is found by it;
* `Session.Submitted.finish_of_orderReply` — what such a call does to the order;
* `Session.finds_of_placed` — what becomes of the order and its exchange id.
-/

set_option autoImplicit false

namespace SpotGateway

/-- What a successful reply says about an order, if it can be read so. -/
def Http.Delivery.orderReply? : Http.Delivery → Option OrderReply
  | .reply response =>
    if response.isSuccess then (Json.decode OrderReply.decoder response.body).toOption else none
  | _ => none

/-- A delivery with a reply about an order, taken apart. -/
theorem Http.Delivery.orderReply?_eq_some {delivery : Http.Delivery} {reply : OrderReply}
    (h : delivery.orderReply? = some reply) : ∃ response, delivery = .reply response ∧
      response.isSuccess = true ∧ Json.decode OrderReply.decoder response.body = .ok reply := by
  cases delivery with
  | failed error => cases h
  | timedOut => cases h
  | reply response =>
    simp only [orderReply?] at h
    cases hsuccess : response.isSuccess with
    | false =>
      rw [if_neg (by simp [hsuccess])] at h
      cases h
    | true =>
      rw [if_pos hsuccess] at h
      cases hdecode : Json.decode OrderReply.decoder response.body with
      | error failure =>
        rw [hdecode] at h
        cases h
      | ok reply' =>
        rw [hdecode] at h
        cases h
        exact ⟨response, rfl, hsuccess, hdecode⟩

namespace Session

variable {s s' : Session} {now : Timestamp}

/-- The reply to a submission is taken in unless the time of what it reports cannot be told. -/
theorem takePlaced_isOk {clientId : String} {sequence : Nat} {reply : OrderReply}
    (h : ∀ state, Status.normalize reply.status = .ok state →
      ∃ time, s.replyTime now reply = .ok time) :
    ∃ s' r, s.takePlaced now clientId sequence reply = .ok (s', r) := by
  unfold takePlaced
  cases hstatus : Status.normalize reply.status with
  | error error => exact ⟨_, _, rfl⟩
  | ok state =>
    have htime := h state hstatus
    unfold replyTime at htime
    simp only
    cases hown : reply.updatedAt <|> reply.createdAt <;> simp only [hown] at htime <;>
      refine Prod.exists.mp (bind_isOk htime fun time => ?_)
    all_goals
      split
      · exact ⟨_, rfl⟩
      · split <;> exact ⟨_, rfl⟩

/-- A successful reply that can be read is taken in with the budget recorded. -/
theorem finish_of_orderReply {now : Readings} {p : Pending} {o : InFlightOrder} {symbol : String}
    (hp : p.errand = .place o symbol) {delivery : Http.Delivery} {reply : OrderReply}
    (hreply : delivery.orderReply? = some reply) : s.finish now p delivery =
      (s.record p.reservation).takePlaced now.record o.clientId p.sequence reply >>=
        fun placed => .ok (placed.1, placed.2.map .order) := by
  obtain ⟨response, rfl, hsuccess, hdecode⟩ := Http.Delivery.orderReply?_eq_some hreply
  simp only [finish, settle, hsuccess, if_true, hp, takeBody, taking, readBody, hdecode]
  rfl

/-- A call that is answered so returns, unless the time of a known status cannot be told. -/
theorem finish_isOk_of_orderReply {now : Readings} {p : Pending} {o : InFlightOrder}
    {symbol : String} (hp : p.errand = .place o symbol) {delivery : Http.Delivery}
    {reply : OrderReply} (hreply : delivery.orderReply? = some reply)
    (htells : (∃ error, Status.normalize reply.status = .error error) ∨
      ∃ time, s.replyTime now.record reply = .ok time) :
    ∃ s' result, s.finish now p delivery = .ok (s', result) := by
  have htime : ∀ state, Status.normalize reply.status = .ok state →
      ∃ time, (s.record p.reservation).replyTime now.record reply = .ok time := by
    intro state hstatus
    rcases htells with ⟨error, herror⟩ | htime
    · rw [hstatus] at herror
      cases herror
    · exact htime
  obtain ⟨s', r, hplaced⟩ := takePlaced_isOk htime
  exact ⟨s', r.map .order, by rw [finish_of_orderReply hp hreply, hplaced]; rfl⟩

/-! ## The order and its exchange id -/

/-- The order of the client id has the exchange id, and is found by it. -/
structure Finds (s : Session) (exchangeId clientId : String) : Prop where
  carried : ∃ o, s.tracker.get? clientId = some o ∧ o.exchangeId = some exchangeId
  indexed : s.tracker.clientId? exchangeId = some clientId

/-- The first observation of an order, with an exchange id: it is on record, and the order is found
by the id. -/
theorem Submitted.takeUpdate_of_id {o : InFlightOrder} (h : s.Submitted o.clientId o)
    {u : OrderUpdate} (hu : u.clientId = o.clientId) {exchangeId : String}
    (hid : u.exchangeId = some exchangeId) : ∃ s', s.takeUpdate u = (s', .ok (o.advance u)) ∧
      s'.tracker.get? o.clientId = some (o.advance u) ∧ s'.Finds exchangeId o.clientId := by
  have hget : (s.tracker.advance o u).get? o.clientId = some (o.advance u) := by
    rw [← hu]
    exact OrderTracker.get?_advance s.tracker o u
  refine ⟨_, h.takeUpdate hu, hget, ⟨o.advance u, hget, ?_⟩, ?_⟩
  · exact (InFlightOrder.exchangeId_advance_of_none h.exchangeId).trans hid
  · exact (OrderTracker.clientId?_advance s.tracker o u exchangeId).trans
      (if_pos ⟨h.exchangeId, hid⟩)

/-- What taking a successful reply to a submission in leads to. -/
theorem Submitted.takePlaced {o : InFlightOrder} (h : s.Submitted o.clientId o) {sequence : Nat}
    {reply : OrderReply} {r : Except GatewayError InFlightOrder}
    (hplaced : s.takePlaced now o.clientId sequence reply = .ok (s', r)) :
    (∃ error, Status.normalize reply.status = .error error ∧ r = .error error ∧ s' = s) ∨
      ∃ state o', Status.normalize reply.status = .ok state ∧ r = .ok o' ∧
        s'.tracker.get? o.clientId = some o' ∧ o'.state = state ∧ o'.clientId = o.clientId ∧
        s'.Finds reply.id o.clientId := by
  rcases takePlaced_cases hplaced with ⟨error, hstatus, hs, hr⟩ | ⟨state, time, hstatus, htaken⟩
  · exact Or.inl ⟨error, hstatus, hr, hs⟩
  · obtain ⟨s'', htakes, hget, hfinds⟩ :=
      h.takeUpdate_of_id (u := placedUpdate reply o.clientId state sequence time) rfl rfl
    rw [htakes] at htaken
    cases htaken
    exact Or.inr ⟨state, _, hstatus, rfl, hget, rfl, rfl, hfinds⟩

/-- What becomes of the order and its exchange id when the call is finished. -/
theorem Submitted.finish_of_orderReply {now : Readings} {o : InFlightOrder} {p : Pending}
    (h : (s.record p.reservation).Submitted o.clientId o) {symbol : String}
    (hp : p.errand = .place o symbol) {delivery : Http.Delivery} {reply : OrderReply}
    (hreply : delivery.orderReply? = some reply) {result : Except GatewayError Answer}
    (hfinish : s.finish now p delivery = .ok (s', result)) :
    (∃ error, Status.normalize reply.status = .error error ∧ result = .error error ∧
        s'.tracker = s.tracker ∧ s'.tracker.get? o.clientId = some o) ∨
      ∃ state o', Status.normalize reply.status = .ok state ∧ result = .ok (.order o') ∧
        s'.tracker.get? o.clientId = some o' ∧ o'.state = state ∧ o'.clientId = o.clientId ∧
        s'.Finds reply.id o.clientId := by
  rw [Session.finish_of_orderReply hp hreply] at hfinish
  obtain ⟨⟨s₁, r⟩, hplaced, hfinish⟩ := bind_eq_ok.mp hfinish
  cases hfinish
  rcases h.takePlaced hplaced with
    ⟨error, hstatus, rfl, rfl⟩ | ⟨state, o', hstatus, rfl, hget, hstate, hid, hfinds⟩
  · exact Or.inl ⟨error, hstatus, rfl, rfl, h.tracked⟩
  · exact Or.inr ⟨state, o', hstatus, rfl, hget, hstate, hid, hfinds⟩

/-- Who is found by an exchange id is looked up by it. -/
theorem Finds.getByExchangeId? {exchangeId clientId : String} (h : s.Finds exchangeId clientId) :
    s.tracker.getByExchangeId? exchangeId = s.tracker.get? clientId := by
  simp only [OrderTracker.getByExchangeId?, h.indexed]
  rfl

/-- **An order is found by the exchange id of the reply to its submission exactly if the status of
the reply is known.**  Whatever else has happened to the session since, as long as nothing was heard
of that order: a call that is answered by a successful reply that can be read returns, unless the
time of a known status cannot be told.  If the status is known the order is answered, is on record
in the state of the reply under the id of the reply, and is found by it; if it is not, the call
fails, the order waits without an exchange id, and neither record nor index is touched. -/
theorem finds_of_placed {s₁ s₂ : Session} {now : Readings} {expired : Bool} {order : OrderRequest}
    {nonce : String} {p : Pending} {delivery : Http.Delivery} {reply : OrderReply}
    (hstart : s.start now expired (.place order nonce) = .ok (s₁, .ok p))
    (hquiet : ∀ o, p.errand.submitted = some o →
      s₂.tracker.get? o.clientId = s₁.tracker.get? o.clientId)
    (hreply : delivery.orderReply? = some reply) (later : Readings) :
    ∃ sent : OrderBody, p.request.Submits sent ∧
      ((∃ error, Status.normalize reply.status = .error error) ∨
          (∃ time, s₂.replyTime later.record reply = .ok time) →
        ∃ s₃ result, s₂.finish later p delivery = .ok (s₃, result)) ∧
      ∀ s₃ result, s₂.finish later p delivery = .ok (s₃, result) →
        (s₃.Finds reply.id sent.clientId ↔ ∃ state, Status.normalize reply.status = .ok state) ∧
        (∀ state, Status.normalize reply.status = .ok state →
          ∃ o, result = .ok (.order o) ∧ s₃.tracker.get? sent.clientId = some o ∧
            o.clientId = sent.clientId ∧ o.state = state ∧ o.exchangeId = some reply.id ∧
            s₃.tracker.getByExchangeId? reply.id = some o) ∧
        ∀ error, Status.normalize reply.status = .error error →
          result = .error error ∧ s₃.tracker = s₂.tracker ∧
            ∃ o, s₃.tracker.get? sent.clientId = some o ∧ o.clientId = sent.clientId ∧
              o.state = .pendingCreate ∧ o.exchangeId = none := by
  obtain ⟨o, symbol, herrand, hbody, hsubmitted₁⟩ := submitted_of_start hstart
  have hsubmitted : (s₂.record p.reservation).Submitted o.clientId o :=
    ⟨(hquiet o (by rw [herrand]; rfl)).trans hsubmitted₁.tracked, rfl, hsubmitted₁.state,
      hsubmitted₁.exchangeId, hsubmitted₁.lastSequence⟩
  refine ⟨o.submission symbol, hbody, finish_isOk_of_orderReply herrand hreply, ?_⟩
  intro s₃ result hresult
  rcases hsubmitted.finish_of_orderReply herrand hreply hresult with
    ⟨error, hstatus, rfl, hsame, hget⟩ | ⟨state, o', hstatus, rfl, hget, hstate, hid, hfinds⟩
  · refine ⟨⟨?_, ?_⟩, ?_, ?_⟩
    · rintro ⟨⟨o', ho', hcarried⟩, _⟩
      cases hget.symm.trans ho'
      rw [hsubmitted.exchangeId] at hcarried
      cases hcarried
    · rintro ⟨state, hknown⟩
      rw [hstatus] at hknown
      cases hknown
    · intro state hknown
      rw [hstatus] at hknown
      cases hknown
    · intro error' herror'
      rw [hstatus] at herror'
      cases herror'
      exact ⟨rfl, hsame, o, hget, rfl, hsubmitted.state, hsubmitted.exchangeId⟩
  · refine ⟨⟨fun _ => ⟨state, hstatus⟩, fun _ => hfinds⟩, ?_, ?_⟩
    · intro state' hknown
      rw [hstatus] at hknown
      cases hknown
      obtain ⟨o'', ho'', hcarried⟩ := hfinds.carried
      cases hget.symm.trans ho''
      exact ⟨o', rfl, hget, hid, hstate, hcarried, hfinds.getByExchangeId?.trans hget⟩
    · intro error herror
      rw [hstatus] at herror
      cases herror

/-- A reply that accepts an order under the id `ex-1`, in the given words about its status. -/
def acceptance (status : String) : OrderReply :=
  ⟨"ex-1", none, none, none, none, none, none, none, none, status, none, none⟩

/-- The exchange takes the order and puts it on the book. -/
def openReply : Http.Delivery :=
  .reply ⟨200, "\x7b\"id\":\"ex-1\",\"status\":\"open\"\x7d"⟩

theorem finds_of_openReply : ∃ s s₁ s₂ p o,
    Session.create .default ⟨"key", "secret", none⟩ = .ok s ∧
    s.learnPair.start (.still ⟨0, false⟩) false (.place oneUnit "0123456789abcdef") =
      .ok (s₁, .ok p) ∧
    openReply.orderReply? = some (acceptance "open") ∧
    s₁.finish (.still ⟨0, false⟩) p openReply = .ok (s₂, .ok (.order o)) ∧
    ∃ sent : OrderBody, p.request.Submits sent ∧ s₂.Finds "ex-1" sent.clientId ∧
      s₂.tracker.getByExchangeId? "ex-1" = some o := by
  obtain ⟨s, s₁, p, hs, hstart, hclock⟩ := oneUnit_sent
  have hreply : openReply.orderReply? = some (acceptance "open") := by decide +kernel
  have hstatus : Status.normalize (acceptance "open").status = .ok .open := rfl
  obtain ⟨sent, hbody, hreturns, hresult⟩ :=
    finds_of_placed hstart (fun _ _ => rfl) hreply (.still ⟨0, false⟩)
  obtain ⟨s₂, result, hfinish⟩ := hreturns (Or.inr ⟨⟨0, false⟩, hclock⟩)
  obtain ⟨hfinds, hknown, _⟩ := hresult s₂ result hfinish
  obtain ⟨o, hok, _, _, _, _, hfound⟩ := hknown .open hstatus
  subst hok
  exact ⟨s, s₁, s₂, p, o, hs, hstart, hreply, hfinish, sent, hbody, hfinds.mpr ⟨.open, hstatus⟩,
    hfound⟩

/-- The exchange takes the order and uses a status that is not known. -/
def unknownStatusReply : Http.Delivery :=
  .reply ⟨200, "\x7b\"id\":\"ex-1\",\"status\":\"partially_filled\"\x7d"⟩

/-- The exchange took the order and told its id, and yet nothing that is heard of that id later
reaches the order. -/
theorem lost_of_unknownStatus : ∃ s s₁ s₂ p error,
    Session.create .default ⟨"key", "secret", none⟩ = .ok s ∧
    s.learnPair.start (.still ⟨0, false⟩) false (.place oneUnit "0123456789abcdef") =
      .ok (s₁, .ok p) ∧
    unknownStatusReply.orderReply? = some (acceptance "partially_filled") ∧
    s₁.finish (.still ⟨0, false⟩) p unknownStatusReply = .ok (s₂, .error error) ∧
    ∃ (sent : OrderBody) (o : InFlightOrder), p.request.Submits sent ∧
      s₂.tracker.get? sent.clientId = some o ∧ o.exchangeId = none ∧
      ¬ s₂.Finds "ex-1" sent.clientId ∧
      ∀ r : OrderReport, r.exchangeId = "ex-1" → s₂.observe r = s₂ := by
  obtain ⟨s, s₁, p, hs, hstart, hclock⟩ := oneUnit_sent
  have hreply : unknownStatusReply.orderReply? = some (acceptance "partially_filled") := by
    decide +kernel
  obtain ⟨o, symbol, herrand, hbody, hsubmitted⟩ := submitted_of_start hstart
  have hfinish : s₁.finish (.still ⟨0, false⟩) p unknownStatusReply =
      .ok (s₁.record p.reservation, .error (.unrecognizedStatus "partially_filled")) := by
    rw [finish_of_orderReply herrand hreply]
    rfl
  have hunindexed : s₁.tracker.clientId? "ex-1" = none := by
    cases hs
    cases hstart
    rfl
  refine ⟨s, s₁, _, p, _, hs, hstart, hreply, hfinish, o.submission symbol, o, hbody,
    hsubmitted.tracked, hsubmitted.exchangeId, ?_, ?_⟩
  · intro hfinds
    have hindexed : s₁.tracker.clientId? "ex-1" = some o.clientId := hfinds.indexed
    rw [hunindexed] at hindexed
    cases hindexed
  · intro r hr
    have hunknown : (s₁.record p.reservation).tracker.clientId? r.exchangeId = none := by
      rw [hr]
      exact hunindexed
    simp only [observe, OrderTracker.observe, hunknown]

end Session

end SpotGateway
