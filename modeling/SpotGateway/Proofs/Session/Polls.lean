import SpotGateway.Proofs.Order.Newest
import SpotGateway.Proofs.Order.Reports
import SpotGateway.Proofs.Session.Submission

/-!
# Polls

Cancellations, questions about one order and lists of orders are answered by what the exchange
reports about orders.  All that is answered has been taken in, in the order in which it is answered
and under the place of the request.

* `Call.polls`, `Call.Tells` — calls that are answered by reports, and the reports;
* `Session.Hears` — what a session hears from the body of a reply;
* `Session.heard_or_placed` — all that the body of a reply can do to what is known of orders;
* `Session.sent_of_poll`, `Session.hears_of_finish` — the two halves of such a call.
-/

set_option autoImplicit false

namespace SpotGateway

/-- The call is answered by what the exchange reports about orders. -/
def Call.polls : Call → Bool
  | .cancel _ | .status _ | .openOrders | .allOrders => true
  | _ => false

/-- What the answer of a call tells about orders. -/
inductive Call.Tells : Call → Answer → List OrderReport → Prop where
  /-- The state of the order that was to be canceled, and no executed amount. -/
  | cancelled {report : OrderReport} (unmeasured : report.executed = none) :
      Tells (.cancel report.exchangeId) (.state report.state) [report]
  /-- One report, about whichever order it names. -/
  | status (exchangeId : String) (report : OrderReport) :
      Tells (.status exchangeId) (.report report) [report]
  | openOrders (reports : List OrderReport) : Tells .openOrders (.reports reports) reports
  | allOrders (reports : List OrderReport) : Tells .allOrders (.reports reports) reports
  /-- Other calls are not about orders on the exchange, or submit one. -/
  | silent {call : Call} (answer : Answer) (silent : call.polls = false) : Tells call answer []

namespace Session

variable {s s' : Session} {now : Timestamp}

/-! ## What is heard -/

/-- Reports under the place of the request are taken in, and they are what a successful answer
tells. -/
def Hears (s : Session) (call : Call) (sequence : Nat) (s' : Session)
    (result : Except GatewayError Answer) : Prop :=
  ∃ heard : List OrderReport, (∀ report ∈ heard, report.sequence = sequence) ∧
    s'.tracker = s.tracker.observeAll heard ∧
    ∀ answer, result = .ok answer → call.Tells answer heard

theorem Hears.of_error (s : Session) (call : Call) (sequence : Nat) (error : GatewayError) :
    s.Hears call sequence s (.error error) := by
  refine ⟨[], ?_, rfl, ?_⟩
  · intro report hreport
    cases hreport
  · intro answer hanswer
    cases hanswer

theorem Hears.of_report (s : Session) {call : Call} {report : OrderReport} {answer : Answer}
    (htells : call.Tells answer [report]) :
    s.Hears call report.sequence (s.observe report) (.ok answer) := by
  refine ⟨[report], ?_, rfl, ?_⟩
  · intro report' hreport'
    rw [List.mem_singleton.mp hreport']
  · intro answer' hanswer'
    cases hanswer'
    exact htells

theorem tracker_foldl_observe (s : Session) (reports : List OrderReport) :
    (reports.foldl observe s).tracker = s.tracker.observeAll reports := by
  induction reports generalizing s with
  | nil => rfl
  | cons report rest ih => exact ih _

theorem hears_cancel {exchangeId body : String} {sequence : Nat} {r : Except GatewayError Answer}
    (h : s.takeBody now sequence (.cancel exchangeId) body = .ok (s', r)) :
    s.Hears (.cancel exchangeId) sequence s' r := by
  rcases taking_cases h with ⟨error, _, rfl, rfl⟩ | ⟨reply, _, h⟩
  · exact Hears.of_error _ _ _ _
  · obtain ⟨⟨s₁, state⟩, hcancelled, h⟩ := bind_eq_ok.mp h
    cases h
    rcases takeCancelled_cases hcancelled with
      ⟨error, rfl, rfl⟩ | ⟨report, rfl, hexecuted, rfl, rfl, rfl⟩
    · exact Hears.of_error _ _ _ _
    · exact Hears.of_report s (.cancelled hexecuted)

theorem hears_status {exchangeId body : String} {sequence : Nat} {r : Except GatewayError Answer}
    (h : s.takeBody now sequence (.status exchangeId) body = .ok (s', r)) :
    s.Hears (.status exchangeId) sequence s' r := by
  rcases taking_cases h with ⟨error, _, rfl, rfl⟩ | ⟨reply, _, h⟩
  · exact Hears.of_error _ _ _ _
  · obtain ⟨⟨s₁, result⟩, hstatus, h⟩ := bind_eq_ok.mp h
    cases h
    rcases takeStatus_cases hstatus with ⟨error, rfl, rfl⟩ | ⟨report, rfl, rfl, rfl⟩
    · exact Hears.of_error _ _ _ _
    · exact Hears.of_report s (.status exchangeId report)

/-- Lists are heard alike, whichever orders they are lists of. -/
theorem hears_list {call : Call} (htells : ∀ reports, call.Tells (.reports reports) reports)
    {e : Errand} {body : String} {sequence : Nat} {r : Except GatewayError Answer}
    (h : s.takeOrderList now sequence e body = .ok (s', r)) : s.Hears call sequence s' r := by
  rcases taking_cases h with ⟨error, _, rfl, rfl⟩ | ⟨entries, _, h⟩
  · exact Hears.of_error _ _ _ _
  · obtain ⟨receivedAt, _, h⟩ := bind_eq_ok.mp h
    obtain ⟨⟨s₁, result⟩, hreports, h⟩ := bind_eq_ok.mp h
    cases h
    obtain ⟨heard, hplaces, _, rfl, hanswered, _⟩ := takeReports_cases hreports
    refine ⟨heard, hplaces, tracker_foldl_observe s heard, ?_⟩
    intro answer hanswer
    cases result with
    | error error => cases hanswer
    | ok reports =>
      cases hanswer
      rw [← hanswered reports rfl]
      exact htells reports

/-- All that the body of a reply can do to what is known of orders: reports under the place of the
request are taken in, of which there may be none, or the reply to a submission is. -/
theorem heard_or_placed {sequence : Nat} {e : Errand} {body : String}
    {r : Except GatewayError Answer} (h : s.takeBody now sequence e body = .ok (s', r)) :
    (∃ heard : List OrderReport, (∀ report ∈ heard, report.sequence = sequence) ∧
        s'.tracker = s.tracker.observeAll heard) ∨
      ∃ o reply state time, e.submitted = some o ∧
        Json.decode OrderReply.decoder body = .ok reply ∧
        s'.tracker = (s.tracker.apply (placedUpdate reply o.clientId state sequence time)).1 := by
  have nothing : ∀ s₁ : Session, s₁.tracker = s.tracker →
      ∃ heard : List OrderReport, (∀ report ∈ heard, report.sequence = sequence) ∧
        s₁.tracker = s.tracker.observeAll heard := by
    intro s₁ hsame
    refine ⟨[], ?_, hsame⟩
    intro report hreport
    cases hreport
  have heard : ∀ call, s.Hears call sequence s' r →
      ∃ heard : List OrderReport, (∀ report ∈ heard, report.sequence = sequence) ∧
        s'.tracker = s.tracker.observeAll heard := by
    rintro call ⟨reports, hplaces, hobserved, _⟩
    exact ⟨reports, hplaces, hobserved⟩
  cases e with
  | place o symbol =>
    rcases taking_cases h with ⟨_, _, rfl, _⟩ | ⟨reply, hread, h⟩
    · exact Or.inl (nothing _ rfl)
    · obtain ⟨⟨s₁, placed⟩, hplaced, h⟩ := bind_eq_ok.mp h
      cases h
      rcases takePlaced_cases hplaced with ⟨_, _, rfl, _⟩ | ⟨state, time, _, htaken⟩
      · exact Or.inl (nothing _ rfl)
      · refine Or.inr ⟨o, reply, state, time, rfl, readBody_eq_ok_iff.mp hread, ?_⟩
        have hfirst := takeUpdate_fst s (placedUpdate reply o.clientId state sequence time)
        rw [htaken] at hfirst
        exact congrArg Session.tracker hfirst
  | cancel exchangeId => exact Or.inl (heard _ (hears_cancel h))
  | status exchangeId => exact Or.inl (heard _ (hears_status h))
  | openOrders => exact Or.inl (heard _ (hears_list .openOrders h))
  | allOrders => exact Or.inl (heard _ (hears_list .allOrders h))
  | syncTime sentAt =>
    rcases taking_cases h with ⟨_, _, rfl, _⟩ | ⟨server, _, h⟩
    · exact Or.inl (nothing _ rfl)
    · cases h
      exact Or.inl (nothing _ rfl)
  | exchangeInfo =>
    rcases taking_cases h with ⟨_, _, rfl, _⟩ | ⟨info, _, h⟩
    · exact Or.inl (nothing _ rfl)
    · cases h
      exact Or.inl (nothing _ (tracker_takeExchangeInfo s info))
  | _ =>
    cases h
    exact Or.inl (nothing _ rfl)

/-! ## The two halves -/

/-- A poll that is sent tracks no order, and its place is the next one. -/
theorem sent_of_poll {now : Readings} {expired : Bool} {call : Call} {p : Pending}
    (h : s.start now expired call = .ok (s', .ok p)) (hpolls : call.polls = true) :
    s.plan now.record call = .ok (.ok p.errand) ∧ p.errand.submitted = none ∧
      s'.tracker = (s.tracker.nextSequence now.sequencer).1 ∧
      p.sequence = (s.tracker.nextSequence now.sequencer).2 := by
  cases started_of_start h with
  | sent errand limiter reservation request tracker planned reserved requested intime tracked
      changed =>
    have hsubmitted : errand.submitted = none := by
      cases call <;> cases hpolls <;> cases planned <;> rfl
    rw [hsubmitted] at tracked
    rw [changed, tracked]
    exact ⟨planned, hsubmitted, rfl, rfl⟩

/-- What a poll hears when it is finished. -/
theorem hears_of_finish {started : Timestamp} {now : Readings} {s₀ : Session} {call : Call}
    {p : Pending} (hplan : s₀.plan started call = .ok (.ok p.errand)) (hpolls : call.polls = true)
    {delivery : Http.Delivery} {r : Except GatewayError Answer}
    (h : s.finish now p delivery = .ok (s', r)) : s.Hears call p.sequence s' r := by
  obtain ⟨s₁, settled, hsettle, _, hcases⟩ := finish_cases h
  have htracker : s₁.tracker = s.tracker := by
    rw [← tracker_settle s now.limiter p.reservation delivery, hsettle]
  have hears : s₁.Hears call p.sequence s' r := by
    rcases hcases with ⟨error, _, rfl, hafter⟩ | ⟨body, _, hbody⟩
    · rcases afterFailure_cases hafter with ⟨rfl, _⟩ | ⟨order, u, hsubmitted, _⟩
      · exact Hears.of_error _ _ _ _
      · generalize p.errand = errand at hplan hsubmitted
        cases call <;> cases hpolls <;> cases hplan <;> cases hsubmitted
    · generalize p.errand = errand at hplan hbody
      cases call with
      | cancel exchangeId =>
        cases hplan
        exact hears_cancel hbody
      | status exchangeId =>
        cases hplan
        exact hears_status hbody
      | openOrders =>
        cases hplan
        exact hears_list .openOrders hbody
      | allOrders =>
        cases hplan
        exact hears_list .allOrders hbody
      | _ => cases hpolls
  obtain ⟨heard, hplaces, hobserved, htells⟩ := hears
  exact ⟨heard, hplaces, htracker ▸ hobserved, htells⟩

end Session

end SpotGateway
