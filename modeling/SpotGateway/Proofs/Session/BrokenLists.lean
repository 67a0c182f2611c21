import SpotGateway.Proofs.Order.Ownership
import SpotGateway.Proofs.Session.Faults
import SpotGateway.Proofs.Session.Polls

/-!
# Polls that fail

A cancellation or a question about one order that fails changes no order.  A list of orders is taken
in entry by entry: where it breaks off at a status that is not known, the entries ahead of it have
been taken in all the same.

* `OrderTracker.SameEntries` — trackers with the same orders and the same index;
* `Pending.entriesHeard` — the entries of a reply that are taken in;
* `Session.sameEntries_of_start` — starting a poll changes no order;
* `Session.heard_of_failed_poll` — what was taken in of a reply when the poll fails;
* `Session.kept_of_failed_poll` — which polls that fail leave every order as it is;
* `Session.filled_of_brokenList` — a list that breaks off and changes an order.
-/

set_option autoImplicit false

namespace SpotGateway

/-- The same orders are on record, and the index is the same. -/
def OrderTracker.SameEntries (t t' : OrderTracker) : Prop :=
  t'.orders = t.orders ∧ t'.exchangeIds = t.exchangeIds

theorem OrderTracker.SameEntries.of_eq {t t' : OrderTracker} (h : t' = t) : t.SameEntries t' := by
  rw [h]
  exact ⟨rfl, rfl⟩

/-- The entries of the body of a list that are taken in: those ahead of the first whose status is
not known. -/
def OrderListEntry.heardIn (body : String) : List OrderListEntry :=
  match Json.decode (Json.Decoder.list OrderListEntry.decoder) body with
  | .ok entries => entries.takeWhile OrderListEntry.hasKnownStatus
  | .error _ => []

/-- The entries of a delivery that are taken in.  There are none in what is not the successful reply
to a call that asks for a list of orders. -/
def Pending.entriesHeard (p : Pending) : Http.Delivery → List OrderListEntry
  | .reply response =>
    if response.isSuccess && p.errand.lists then OrderListEntry.heardIn response.body else []
  | _ => []

namespace Session

variable {s s' : Session} {now : Timestamp} {expired : Bool} {call : Call} {p : Pending}
  {delivery : Http.Delivery} {error : GatewayError}

/-! ## Starting -/

/-- A poll that is not sent leaves orders, index and sequence as they are. -/
theorem tracker_of_unsent_poll {now : Readings} (hpolls : call.polls = true)
    (h : s.start now expired call = .ok (s', .error error)) : s'.tracker = s.tracker := by
  cases started_of_start h with
  | refused error planned unchanged => rw [unchanged]
  | throttled errand limiter refusal planned reserved changed => rw [changed]
  | late errand limiter reservation planned reserved passed changed =>
    rw [changed]
    rfl
  | untracked errand limiter reservation order tracker error planned reserved intime submitted
      tracked changed =>
    have hsubmitted : errand.submitted = none := by
      cases call <;> cases hpolls <;> cases planned <;> rfl
    rw [hsubmitted] at submitted
    cases submitted

theorem sameEntries_of_start {now : Readings} (hpolls : call.polls = true)
    {result : Except GatewayError Pending} (h : s.start now expired call = .ok (s', result)) :
    s.tracker.SameEntries s'.tracker := by
  cases result with
  | error error => exact .of_eq (tracker_of_unsent_poll hpolls h)
  | ok p =>
    rw [(sent_of_poll h hpolls).2.2.1]
    exact ⟨rfl, rfl⟩

/-! ## Finishing -/

/-- Reports of the given entries under the given place were taken in, and if there were any, the
failure that came after them is that of a status that is not known. -/
def HeardBefore (s : Session) (entries : List OrderListEntry) (sequence : Nat) (s' : Session)
    (error : GatewayError) : Prop :=
  ∃ heard : List OrderReport, (∀ report ∈ heard, report.sequence = sequence) ∧
    heard.map OrderReport.exchangeId = entries.map OrderListEntry.id ∧
    s'.tracker = s.tracker.observeAll heard ∧
    (entries ≠ [] → ∃ status, error = .unrecognizedStatus status)

theorem HeardBefore.of_eq (h : s'.tracker = s.tracker) (sequence : Nat) (error : GatewayError) :
    s.HeardBefore [] sequence s' error :=
  ⟨[], by simp, rfl, h, by simp⟩

theorem heard_of_failed_list {sequence : Nat} {e : Errand} {body : String}
    (h : s.takeOrderList now sequence e body = .ok (s', .error error)) :
    s.HeardBefore (OrderListEntry.heardIn body) sequence s' error := by
  unfold OrderListEntry.heardIn
  rcases taking_cases h with ⟨_, hread, rfl, _⟩ | ⟨entries, hread, h⟩
  · cases hdecode : Json.decode (Json.Decoder.list OrderListEntry.decoder) body with
    | ok entries =>
      rw [readBody_eq_ok_iff.mpr hdecode] at hread
      cases hread
    | error failure => exact .of_eq rfl sequence error
  · obtain ⟨receivedAt, _, h⟩ := bind_eq_ok.mp h
    obtain ⟨⟨s₁, result⟩, hreports, h⟩ := bind_eq_ok.mp h
    obtain ⟨heard, hplaces, hids, hobserved, _, hfailed⟩ := takeReports_cases hreports
    rw [readBody_eq_ok_iff.mp hread]
    cases result with
    | ok reports => cases h
    | error reason =>
      cases h
      exact ⟨heard, hplaces, hids, hobserved ▸ tracker_foldl_observe s heard,
        fun _ => hfailed error rfl⟩

/-- A cancellation or a question about one order that fails takes nothing in. -/
theorem tracker_of_failed_question {sequence : Nat} {e : Errand} {body : String}
    (he : (∃ exchangeId, e = .cancel exchangeId) ∨ ∃ exchangeId, e = .status exchangeId)
    (h : s.takeBody now sequence e body = .ok (s', .error error)) : s'.tracker = s.tracker := by
  rcases he with ⟨exchangeId, rfl⟩ | ⟨exchangeId, rfl⟩
  · rcases taking_cases h with ⟨_, _, rfl, _⟩ | ⟨reply, _, h⟩
    · rfl
    · obtain ⟨⟨s₁, result⟩, htaken, hanswer⟩ := bind_eq_ok.mp h
      rcases takeCancelled_cases htaken with ⟨reason, rfl, rfl⟩ | ⟨report, _, _, _, rfl, _⟩
      · cases hanswer
        rfl
      · cases hanswer
  · rcases taking_cases h with ⟨_, _, rfl, _⟩ | ⟨reply, _, h⟩
    · rfl
    · obtain ⟨⟨s₁, result⟩, htaken, hanswer⟩ := bind_eq_ok.mp h
      rcases takeStatus_cases htaken with ⟨reason, rfl, rfl⟩ | ⟨report, _, rfl, _⟩
      · cases hanswer
        rfl
      · cases hanswer

/-- What was taken in of a reply when its poll fails. -/
theorem heard_of_failed_poll {s₀ : Session} {started : Timestamp} {now : Readings}
    (hplan : s₀.plan started call = .ok (.ok p.errand)) (hpolls : call.polls = true)
    (h : s.finish now p delivery = .ok (s', .error error)) :
    s.HeardBefore (p.entriesHeard delivery) p.sequence s' error := by
  obtain ⟨s₁, settled, hsettle, _, hcases⟩ := finish_cases h
  have htracker : s₁.tracker = s.tracker := by
    rw [← tracker_settle s now.limiter p.reservation delivery, hsettle]
  rcases hcases with ⟨reason, rfl, _, hafter⟩ | ⟨body, rfl, hbody⟩
  · have hnone : p.entriesHeard delivery = [] := by
      cases delivery with
      | reply response =>
        have hfailed : response.isSuccess = false := by
          cases hsuccess : response.isSuccess with
          | false => rfl
          | true => simp [settle, hsuccess] at hsettle
        simp [Pending.entriesHeard, hfailed]
      | failed failure => rfl
      | timedOut => rfl
    have hkept : s' = s₁ := by
      rcases afterFailure_cases hafter with ⟨hsame, _⟩ | ⟨order, u, hsubmitted, _⟩
      · exact hsame
      · generalize p.errand = errand at hplan hsubmitted
        cases call <;> cases hpolls <;> cases hplan <;> cases hsubmitted
    rw [hnone]
    exact .of_eq (hkept ▸ htracker) _ _
  · obtain ⟨response, rfl, hsuccess, rfl⟩ := reply_of_settle (by rw [hsettle])
    have heard : s₁.HeardBefore (p.entriesHeard (.reply response)) p.sequence s' error := by
      simp only [Pending.entriesHeard, hsuccess, Bool.true_and]
      generalize p.errand = errand at hplan hbody
      cases call with
      | cancel exchangeId =>
        cases hplan
        exact .of_eq (tracker_of_failed_question (.inl ⟨_, rfl⟩) hbody) _ _
      | status exchangeId =>
        cases hplan
        exact .of_eq (tracker_of_failed_question (.inr ⟨_, rfl⟩) hbody) _ _
      | openOrders =>
        cases hplan
        exact heard_of_failed_list hbody
      | allOrders =>
        cases hplan
        exact heard_of_failed_list hbody
      | _ => cases hpolls
    obtain ⟨reports, hplaces, hids, hobserved, hreason⟩ := heard
    exact ⟨reports, hplaces, hids, htracker ▸ hobserved, hreason⟩

/-- What was taken in changed no order exactly if no order listened to any of it. -/
theorem HeardBefore.sameEntries_iff {entries : List OrderListEntry} {sequence : Nat}
    (h : s.HeardBefore entries sequence s' error) :
    s.tracker.SameEntries s'.tracker ↔ ∀ e ∈ entries, ¬ s.tracker.Listens e.id sequence := by
  obtain ⟨heard, hplaces, hids, hobserved, _⟩ := h
  rw [OrderTracker.SameEntries, hobserved, OrderTracker.observeAll_keeps_iff hplaces,
    ← List.forall_mem_map (f := OrderReport.exchangeId)
      (P := fun exchangeId => ¬ s.tracker.Listens exchangeId sequence), hids, List.forall_mem_map]

/-- **Which polls that fail leave every order as it is.**  In every session, and whatever becomes of
the request:

* a cancellation, a question about one order or about a list of orders changes neither orders nor
  index when it is started;
* nothing at all is changed if it fails then;
* if it fails when it is finished, whatever was done with the session in between, orders and index
  are left as they are exactly if no order listens to an entry of the reply that is ahead of the
  first whose status is not known; otherwise the failure is that of a status that is not known. -/
theorem kept_of_failed_poll {now : Readings} (hpolls : call.polls = true) {started : Session}
    {result : Except GatewayError Pending}
    (hstart : s.start now expired call = .ok (started, result)) :
    s.tracker.SameEntries started.tracker ∧
    (∀ error, result = .error error → started.tracker = s.tracker) ∧
    ∀ p, result = .ok p → ∀ (s₁ s₂ : Session) later delivery error,
      s₁.finish later p delivery = .ok (s₂, .error error) →
      (s₁.tracker.SameEntries s₂.tracker ↔
        ∀ e ∈ p.entriesHeard delivery, ¬ s₁.tracker.Listens e.id p.sequence) ∧
      (¬ s₁.tracker.SameEntries s₂.tracker → ∃ status, error = .unrecognizedStatus status) := by
  refine ⟨sameEntries_of_start hpolls hstart, ?_, ?_⟩
  · rintro error rfl
    exact tracker_of_unsent_poll hpolls hstart
  · rintro p rfl s₁ s₂ later delivery error hfinish
    have heard := heard_of_failed_poll (sent_of_poll hstart hpolls).1 hpolls hfinish
    refine ⟨heard.sameEntries_iff, fun hchanged => ?_⟩
    obtain ⟨_, _, _, _, hreason⟩ := id heard
    refine hreason fun hnone => hchanged ?_
    rw [heard.sameEntries_iff, hnone]
    simp

/-! ## One list -/

/-- An order that rests on the book. -/
def onBook : InFlightOrder :=
  (OrderTracker.submitted "c1").advance (OrderTracker.observation "c1" "e1" .open 0)

/-- What a list says of an order: its exchange id and its status. -/
def entryText (e : String × String) : String :=
  "\x7b\"id\":\"" ++ e.1 ++ "\",\"market\":\"M\",\"bids\":true,\"size\":0,\"status\":\"" ++ e.2 ++
    "\"\x7d"

/-- A list that breaks off at its first entry. -/
def brokenAtFirst : String := "[" ++ entryText ("e1", "halted") ++ "]"

/-- A list that breaks off at its second entry. -/
def brokenAtSecond : String :=
  "[" ++ entryText ("e1", "FILLED") ++ "," ++ entryText ("e2", "halted") ++ "]"

/-- Open orders are asked for while an order rests on the book. -/
theorem openOrders_sent : ∃ s s₁ p, Session.create .default ⟨"key", "secret", none⟩ = .ok s ∧
    (s.track onBook).1.start (.still ⟨0, false⟩) false .openOrders = .ok (s₁, .ok p) ∧
    p.errand = .openOrders ∧ s₁.tracker.get? "c1" = some onBook :=
  ⟨_, _, _, rfl, rfl, rfl, rfl⟩

/-- The state that the order is left in if the list makes the poll fail. -/
def stateAfter (list : String) : Option (Option OrderState) := do
  let s ← (Session.create .default ⟨"key", "secret", none⟩).toOption
  let (s₁, sent) ← ((s.track onBook).1.start (.still ⟨0, false⟩) false .openOrders).toOption
  match ← (s₁.finish (.still ⟨0, false⟩) (← sent.toOption) (.reply ⟨200, list⟩)).toOption with
  | (_, .ok _) => none
  | (s₂, .error _) => return (s₂.tracker.get? "c1").map InFlightOrder.state

theorem finish_of_stateAfter {s s₁ : Session} {list : String} {state : Option OrderState}
    (h : stateAfter list = some state)
    (hs : Session.create .default ⟨"key", "secret", none⟩ = .ok s)
    (hstart : (s.track onBook).1.start (.still ⟨0, false⟩) false .openOrders = .ok (s₁, .ok p)) :
    ∃ s₂ error, s₁.finish (.still ⟨0, false⟩) p (.reply ⟨200, list⟩) = .ok (s₂, .error error) ∧
      (s₂.tracker.get? "c1").map InFlightOrder.state = state := by
  simp only [stateAfter, hs, hstart, Except.toOption, Option.bind_eq_bind, Option.bind_some] at h
  cases hfinish : s₁.finish (.still ⟨0, false⟩) p (.reply ⟨200, list⟩) with
  | error fault =>
    rw [hfinish] at h
    cases h
  | ok outcome =>
    obtain ⟨s₂, result⟩ := outcome
    rw [hfinish] at h
    cases result with
    | ok answer => cases h
    | error error => exact ⟨s₂, error, rfl, Option.some.inj h⟩

theorem stateAfter_brokenAtFirst : stateAfter brokenAtFirst = some (some .open) := by
  decide +kernel

theorem stateAfter_brokenAtSecond : stateAfter brokenAtSecond = some (some .filled) := by
  decide +kernel

/-- A poll that changes the state of the order changes the entries. -/
theorem not_sameEntries_of_state {s₁ s₂ : Session} (hrecord : s₁.tracker.get? "c1" = some onBook)
    (hstate : (s₂.tracker.get? "c1").map InFlightOrder.state = some .filled) :
    ¬ s₁.tracker.SameEntries s₂.tracker := by
  rintro ⟨hsame, _⟩
  have hkept : s₂.tracker.get? "c1" = s₁.tracker.get? "c1" := congrArg (Keyed.get? · "c1") hsame
  rw [hkept, hrecord] at hstate
  cases hstate

/-- A list that breaks off at its first entry changes nothing.  Where one that breaks off at its
second has changed the order on the book, the order has listened to the first. -/
theorem kept_of_brokenList : ∃ s s₁ p s₂ s₃ error error',
    Session.create .default ⟨"key", "secret", none⟩ = .ok s ∧
    (s.track onBook).1.start (.still ⟨0, false⟩) false .openOrders = .ok (s₁, .ok p) ∧
    s₁.finish (.still ⟨0, false⟩) p (.reply ⟨200, brokenAtFirst⟩) = .ok (s₂, .error error) ∧
    s₁.tracker.SameEntries s₂.tracker ∧
    s₁.finish (.still ⟨0, false⟩) p (.reply ⟨200, brokenAtSecond⟩) = .ok (s₃, .error error') ∧
    (∃ e ∈ OrderListEntry.heardIn brokenAtSecond, s₁.tracker.Listens e.id p.sequence) ∧
    ∃ status, error' = .unrecognizedStatus status := by
  obtain ⟨s, s₁, p, hs, hstart, herrand, hrecord⟩ := openOrders_sent
  obtain ⟨s₂, error, hfinish, _⟩ := finish_of_stateAfter stateAfter_brokenAtFirst hs hstart
  obtain ⟨s₃, error', hfinish', hstate⟩ :=
    finish_of_stateAfter stateAfter_brokenAtSecond hs hstart
  have hpolls : Call.openOrders.polls = true := rfl
  obtain ⟨_, _, hfailed⟩ := kept_of_failed_poll hpolls hstart
  obtain ⟨hkept, _⟩ := hfailed p rfl _ _ _ _ _ hfinish
  obtain ⟨hkept', hreason⟩ := hfailed p rfl _ _ _ _ _ hfinish'
  have hheard : ∀ list, p.entriesHeard (.reply ⟨200, list⟩) = OrderListEntry.heardIn list := by
    intro list
    rw [Pending.entriesHeard, herrand]
    rfl
  have hnone : (OrderListEntry.heardIn brokenAtFirst).isEmpty = true := by
    decide +kernel
  have hchanged := not_sameEntries_of_state hrecord hstate
  refine ⟨s, s₁, p, s₂, s₃, error, error', hs, hstart, hfinish, ?_, hfinish', ?_, hreason hchanged⟩
  · rw [hkept, hheard, List.isEmpty_iff.mp hnone]
    simp
  · rw [hkept', hheard] at hchanged
    simpa using hchanged

/-- An order on the book is filled by a poll that fails. -/
theorem filled_of_brokenList : ∃ s s₁ p s₂ error,
    Session.create .default ⟨"key", "secret", none⟩ = .ok s ∧
    (s.track onBook).1.start (.still ⟨0, false⟩) false .openOrders = .ok (s₁, .ok p) ∧
    s₁.finish (.still ⟨0, false⟩) p (.reply ⟨200, brokenAtSecond⟩) = .ok (s₂, .error error) ∧
    s₁.tracker.get? "c1" = some onBook ∧ onBook.state = .open ∧
    (s₂.tracker.get? "c1").map InFlightOrder.state = some .filled ∧
    ¬ s₁.tracker.SameEntries s₂.tracker := by
  obtain ⟨s, s₁, p, hs, hstart, _, hrecord⟩ := openOrders_sent
  obtain ⟨s₂, error, hfinish, hstate⟩ := finish_of_stateAfter stateAfter_brokenAtSecond hs hstart
  exact ⟨s, s₁, p, s₂, error, hs, hstart, hfinish, hrecord, rfl, hstate,
    not_sameEntries_of_state hrecord hstate⟩

end Session

end SpotGateway
