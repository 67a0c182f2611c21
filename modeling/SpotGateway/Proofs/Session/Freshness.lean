import SpotGateway.Proofs.Order.Index
import SpotGateway.Proofs.Session.Acceptance
import SpotGateway.Proofs.Session.Dialogue
import SpotGateway.Proofs.Session.Polls

/-!
# Fresh answers are never discarded

Whatever was asked and heard before, and however the clock went: what a poll answers about an order
that is followed is on record afterwards, as long as the exchange gives no id to two orders.

* `Pending.grant?`, `OrderUpdate.grant?`, `InFlightOrder.grant?` — exchange ids that are given;
* `Journal`, `Journal.note` — the places that were issued and the exchange ids that were given in a
  course;
* `Session.orderly_of_sent`, `orderly_of_refused`, `orderly_finish` — what the halves of a call keep
  in order;
* `Dialogue.Orderly`, `Dialogue.orderly_of_attempt`, `Dialogue.orderly_of_course` — the invariant;
* `Dialogue.fresh_of_course` — what holds of every poll.
-/

set_option autoImplicit false

namespace SpotGateway

/-! ## Exchange ids that are given -/

/-- The exchange id that a reply gives to the order of a submission, with its client id. -/
def Pending.grant? (p : Pending) (delivery : Http.Delivery) : Option (String × String) := do
  let o ← p.errand.submitted
  let reply ← delivery.orderReply?
  return (reply.id, o.clientId)

/-- The exchange id that an observation reports, with the client id of its order. -/
def OrderUpdate.grant? (u : OrderUpdate) : Option (String × String) :=
  u.exchangeId.map fun exchangeId => (exchangeId, u.clientId)

/-- The exchange id that an order has, with its client id. -/
def InFlightOrder.grant? (o : InFlightOrder) : Option (String × String) :=
  o.exchangeId.map fun exchangeId => (exchangeId, o.clientId)

/-! ## What is noted -/

/-- What was said in a course. -/
structure Journal where
  /-- Places that were issued, be it to requests or on demand. -/
  places : List Nat
  /-- Exchange ids that were given, each with the client id of its order. -/
  given : List (String × String)
  /-- Observations from elsewhere came under places that had been issued, and nothing had been
  observed of the orders that were followed besides those that were submitted. -/
  sound : Bool
  deriving DecidableEq, Repr

namespace Journal

def blank : Journal := ⟨[], [], true⟩

/-- What is noted of a move.  An observation that is not taken in gives no exchange id. -/
def note (j : Journal) (d : Dialogue) : Move → Checked Reaction → Journal
  | .start _ _ _, .ok (.sent p) => { j with places := p.sequence :: j.places }
  | .nextSequence _, .ok (.place sequence) => { j with places := sequence :: j.places }
  | .finish number _ delivery, .ok _ =>
    match d.waiting[number]? with
    | some p => { j with given := (p.grant? delivery).toList ++ j.given }
    | none => j
  | .applyUpdate u, .ok (.updated result) => {
      j with
      given := match result with
        | .ok (.applied _ _) => u.grant?.toList ++ j.given
        | _ => j.given
      sound := j.sound && decide (u.sequence ∈ j.places) }
  | .track o, _ => {
      j with
      given := o.grant?.toList ++ j.given
      sound := j.sound && o.lastSequence.isNone }
  | _, _ => j

end Journal

/-! ## What calls keep in order -/

namespace Session

variable {s s' : Session} {now : Timestamp} {places : List Nat} {given : List (String × String)}

/-- An order that is going to be submitted has not been heard of. -/
theorem unheard_of_plan {call : Call} {e : Errand} (h : s.plan now call = .ok (.ok e))
    {o : InFlightOrder} (ho : e.submitted = some o) :
    o.lastSequence = none ∧ o.exchangeId = none := by
  rcases plan_cases h with ⟨order, nonce, rfl, hplan⟩ | ⟨_, hnone, _⟩
  · obtain ⟨rounded, symbol, clientId, createdAt, _, _, _, _, rfl⟩ := planOrder_eq_ok hplan
    cases ho
    exact ⟨rfl, rfl⟩
  · rw [hnone] at ho
    cases ho

theorem orderly_of_plan (h : s.tracker.Orderly places given) {call : Call} {e : Errand}
    (planned : s.plan now call = .ok (.ok e)) {o : InFlightOrder} (submitted : e.submitted = some o) :
    (s.tracker.track o).1.Orderly places given := by
  obtain ⟨hunseen, hunnamed⟩ := unheard_of_plan planned submitted
  refine h.track hunseen fun exchangeId hid => ?_
  rw [hunnamed] at hid
  cases hid

/-- A call that is not sent puts nothing out of order. -/
theorem orderly_of_refused {now : Readings} (h : s.tracker.Orderly places given) {expired : Bool}
    {call : Call} {error : GatewayError}
    (hstart : s.start now expired call = .ok (s', .error error)) :
    s'.tracker.Orderly places given := by
  cases started_of_start hstart with
  | refused error planned unchanged => exact unchanged ▸ h
  | throttled errand limiter refusal planned reserved changed => exact changed ▸ h
  | late errand limiter reservation planned reserved passed changed => exact changed ▸ h
  | untracked errand limiter reservation order tracker error planned reserved intime submitted
      tracked changed =>
    have htrack := orderly_of_plan h planned submitted
    rw [tracked] at htrack
    exact changed ▸ htrack

theorem orderly_of_sent {now : Readings} (h : s.tracker.Orderly places given) {expired : Bool}
    {call : Call} {p : Pending} (hstart : s.start now expired call = .ok (s', .ok p)) :
    s'.tracker.Orderly (p.sequence :: places) given := by
  cases started_of_start hstart with
  | sent errand limiter reservation request tracker planned reserved requested intime tracked
      changed =>
    have htracker : tracker.Orderly places given := by
      cases hsubmitted : errand.submitted with
      | none =>
        rw [hsubmitted] at tracked
        exact tracked ▸ h
      | some order =>
        have htrack := orderly_of_plan h planned hsubmitted
        simp only [hsubmitted] at tracked
        rwa [tracked] at htrack
    rw [changed]
    exact htracker.nextSequence now.sequencer

/-- A failure is observed under a place of its own. -/
theorem orderly_afterFailure {now : Readings} (h : s.tracker.Orderly places given) {e : Errand}
    {error : GatewayError} (hafter : s.afterFailure now e error = .ok s') :
    s'.tracker.Orderly places given := by
  rcases afterFailure_cases hafter with ⟨rfl, _⟩ | ⟨_, u, _, _, _, hunnamed, _, hsequence, rfl⟩
  · exact h
  · have hplace : u.sequence ∈ (s.tracker.nextSequence now.sequencer).2 :: places := by
      rw [hsequence]
      exact List.mem_cons_self
    have hfailed := (h.nextSequence now.sequencer).apply hplace fun exchangeId hid => by
      rw [hunnamed] at hid
      cases hid
    exact hfailed.mono (List.subset_cons_self _ _) (fun _ hpair => hpair)

/-- What is heard is heard under the place of the request, and a submission gets its exchange id from
the reply. -/
theorem orderly_takeBody (h : s.tracker.Orderly places given) {sequence : Nat}
    (hplace : sequence ∈ places) {e : Errand} {body : String}
    (hgiven : ∀ o reply, e.submitted = some o → Json.decode OrderReply.decoder body = .ok reply →
      (reply.id, o.clientId) ∈ given)
    {r : Except GatewayError Answer} (hbody : s.takeBody now sequence e body = .ok (s', r)) :
    s'.tracker.Orderly places given := by
  rcases heard_or_placed hbody with
    ⟨heard, hplaces, hobserved⟩ | ⟨o, reply, state, time, hsubmitted, hdecode, htaken⟩
  · rw [hobserved]
    exact h.observeAll fun report hreport => (hplaces report hreport).symm ▸ hplace
  · rw [htaken]
    refine h.apply hplace fun exchangeId hid => ?_
    cases hid
    exact hgiven o reply hsubmitted hdecode

/-- A call that is finished puts nothing out of order. -/
theorem orderly_finish {now : Readings} (h : s.tracker.Orderly places given) {p : Pending}
    (hplace : p.sequence ∈ places) {delivery : Http.Delivery}
    (hgiven : ∀ pair, p.grant? delivery = some pair → pair ∈ given)
    {r : Except GatewayError Answer} (hfinish : s.finish now p delivery = .ok (s', r)) :
    s'.tracker.Orderly places given := by
  obtain ⟨s₁, settled, hsettle, _, hcases⟩ := finish_cases hfinish
  have htracker := tracker_settle s now.limiter p.reservation delivery
  rw [hsettle] at htracker
  have h₁ : s₁.tracker.Orderly places given := htracker.symm ▸ h
  rcases hcases with ⟨error, _, _, hafter⟩ | ⟨body, rfl, hbody⟩
  · exact orderly_afterFailure h₁ hafter
  · refine orderly_takeBody h₁ hplace ?_ hbody
    intro o reply hsubmitted hdecode
    obtain ⟨response, rfl, hsuccess, rfl⟩ := reply_of_settle (congrArg Prod.snd hsettle)
    refine hgiven _ ?_
    simp [Pending.grant?, hsubmitted, Http.Delivery.orderReply?, hsuccess, hdecode, Except.toOption]

end Session

/-! ## Courses -/

namespace Dialogue

variable {d d' : Dialogue} {j : Journal}

/-- Places and exchange ids are in order, and calls on their way have places that were issued. -/
structure Orderly (d : Dialogue) (j : Journal) : Prop where
  tracker : d.session.tracker.Orderly j.places j.given
  waiting : ∀ p ∈ d.waiting, p.sequence ∈ j.places

theorem Orderly.opening {s : Session} (hs : s.Fresh) : (opening s).Orderly .blank := by
  refine ⟨?_, fun p hp => by cases hp⟩
  obtain ⟨_, _, _, table, _, rfl⟩ := hs.eq
  exact OrderTracker.Orderly.empty

theorem Orderly.of_sent (h : d.Orderly j) {now : Readings} {expired : Bool} {call : Call}
    {session : Session} {p : Pending}
    (half : d.session.attemptStart now expired call = (session, .ok (.ok p))) :
    Orderly ⟨session, d.waiting ++ [p]⟩ { j with places := p.sequence :: j.places } := by
  rcases Session.attemptStart_cases half with ⟨answer, hanswer, hstart⟩ | ⟨_, hstopped, _⟩
  · cases hanswer
    refine ⟨Session.orderly_of_sent h.tracker hstart, ?_⟩
    intro p' hp'
    rcases List.mem_append.mp hp' with hp' | hp'
    · exact List.mem_cons_of_mem _ (h.waiting p' hp')
    · rw [List.mem_singleton.mp hp']
      exact List.mem_cons_self
  · cases hstopped

theorem Orderly.of_refused (h : d.Orderly j) {now : Readings} {expired : Bool} {call : Call}
    {session : Session} {error : GatewayError}
    (half : d.session.attemptStart now expired call = (session, .ok (.error error))) :
    Orderly ⟨session, d.waiting⟩ j := by
  rcases Session.attemptStart_cases half with ⟨answer, hanswer, hstart⟩ | ⟨_, hstopped, _⟩
  · cases hanswer
    exact ⟨Session.orderly_of_refused h.tracker hstart, h.waiting⟩
  · cases hstopped

/-- A call that is stopped before its request goes out has not come to its order yet. -/
theorem Orderly.of_unsent (h : d.Orderly j) {now : Readings} {expired : Bool} {call : Call}
    {session : Session} {fault : Fault}
    (half : d.session.attemptStart now expired call = (session, .error fault)) :
    Orderly ⟨session, d.waiting⟩ j := by
  rcases Session.attemptStart_cases half with ⟨_, hanswer, _⟩ | ⟨_, _, _, hunsent⟩
  · cases hanswer
  · obtain ⟨limiter, rfl⟩ := hunsent.changes
    exact ⟨h.tracker, h.waiting⟩

theorem Orderly.of_finished (h : d.Orderly j) {number : Nat} {now : Readings}
    {delivery : Http.Delivery} {p : Pending} (waits : d.waiting[number]? = some p)
    {session : Session} {result : Checked (Except GatewayError Answer)}
    (half : d.session.attemptFinish now p delivery = (session, result)) :
    Orderly ⟨session, d.waiting.eraseIdx number⟩
      (j.note d (.finish number now delivery) (result.map .answered)) := by
  have hplace := h.waiting p (List.mem_of_getElem? waits)
  rcases Session.attemptFinish_cases half with
    ⟨answer, rfl, hfinish⟩ | ⟨fault, heard, rfl, _, hplaces, hleft⟩
  · have hgiven := h.tracker.mono (fun _ hplace => hplace)
      (List.subset_append_right (p.grant? delivery).toList j.given)
    simp only [Except.map, Journal.note, waits]
    refine ⟨Session.orderly_finish hgiven hplace ?_ hfinish, ?_⟩
    · intro pair hpair
      rw [hpair]
      exact List.mem_cons_self
    · exact fun p' hp' => h.waiting p' (List.mem_of_mem_eraseIdx hp')
  · refine ⟨?_, fun p' hp' => h.waiting p' (List.mem_of_mem_eraseIdx hp')⟩
    rw [hleft, Session.tracker_foldl_observe, Session.tracker_settle]
    exact h.tracker.observeAll fun report hreport => (hplaces report hreport).symm ▸ hplace

theorem Orderly.of_updated (h : d.Orderly j) {u : OrderUpdate} (hplace : u.sequence ∈ j.places) :
    Orderly ⟨(d.session.applyUpdate u).1, d.waiting⟩
      (j.note d (.applyUpdate u) (.ok (.updated (d.session.applyUpdate u).2))) := by
  refine ⟨?_, h.waiting⟩
  simp only [Journal.note, Session.applyUpdate]
  split
  · have hgiven := h.tracker.mono (fun _ hplace => hplace)
      (List.subset_append_right u.grant?.toList j.given)
    refine hgiven.apply hplace fun exchangeId hid => ?_
    simp [OrderUpdate.grant?, hid]
  · rename_i hignored
    -- what does not count changes nothing, so its exchange id need not have been given
    rw [OrderTracker.apply_of_ignored hignored]
    exact h.tracker

theorem Orderly.of_tracked (h : d.Orderly j) {o : InFlightOrder} (unseen : o.lastSequence = none) :
    Orderly ⟨(d.session.track o).1, d.waiting⟩
      (j.note d (.track o) (.ok (.tracked (d.session.track o).2))) := by
  have hgiven := h.tracker.mono (fun _ hplace => hplace)
    (List.subset_append_right o.grant?.toList j.given)
  refine ⟨hgiven.track unseen fun exchangeId hid => ?_, h.waiting⟩
  simp [InFlightOrder.grant?, hid]

/-- A move puts nothing out of order, as long as all is sound. -/
theorem orderly_of_attempt (h : j.sound = true → d.Orderly j) {move : Move}
    {reaction : Checked Reaction} (hmove : d.attempt move = (d', reaction))
    (hsound : (j.note d move reaction).sound = true) : d'.Orderly (j.note d move reaction) := by
  cases attempted_of_attempt hmove with
  | sent half => exact (h hsound).of_sent half
  | refused half => exact (h hsound).of_refused half
  | unsent half => exact (h hsound).of_unsent half
  | @finished number now delivery p session result waits half =>
    have hsame :
        (j.note d (.finish number now delivery) (result.map .answered)).sound = j.sound := by
      cases result <;> simp only [Except.map, Journal.note, waits]
    exact (h (hsame ▸ hsound)).of_finished waits half
  | nothing gone =>
    simp only [Journal.note, gone] at hsound ⊢
    exact h hsound
  | placed now =>
    have horderly := h hsound
    exact ⟨horderly.tracker.nextSequence now,
      fun p hp => List.mem_cons_of_mem _ (horderly.waiting p hp)⟩
  | tracked o =>
    simp only [Journal.note, Bool.and_eq_true, Option.isNone_iff_eq_none] at hsound
    exact (h hsound.1).of_tracked hsound.2
  | updated u =>
    simp only [Journal.note, Bool.and_eq_true, decide_eq_true_eq] at hsound
    exact (h hsound.1).of_updated hsound.2
  | acknowledged clientId =>
    have horderly := h hsound
    exact ⟨horderly.tracker.acknowledge clientId, horderly.waiting⟩
  | looked looks rolled =>
    rcases looks with ⟨tier, rfl⟩ | rfl
    · exact ⟨(h hsound).tracker, (h hsound).waiting⟩
    · exact ⟨(h hsound).tracker, (h hsound).waiting⟩
  | heard frame => exact h hsound
  | subscribed pairs id => exact h hsound

theorem orderly_of_course {s : Session} (hs : s.Fresh) {moves : List Move}
    (h : course Journal.note (opening s) .blank moves = (d, j)) (hsound : j.sound = true) :
    d.Orderly j :=
  course_invariant (P := fun d j => j.sound = true → d.Orderly j)
    (fun _ _ _ _ _ hd hmove => orderly_of_attempt hd hmove) (fun _ => Orderly.opening hs) h hsound

/-- **A fresh answer is never discarded.**  After every course of a session, with any replies and at
any times and whatever was stopped, in which observations from elsewhere came under places that had
been issued:

* no order has seen a place after the last one that was issued;
* and unless an exchange id was given to two orders, let a call be started and finished next, with
  success: the reports that its answer tells bear the place of its request, and for an order that
  has an exchange id and has not come to an end, the first report that names the id is on record
  afterwards: its state, its place, and its executed amount if it tells one. -/
theorem fresh_of_course {s : Session} (hs : s.Fresh) {moves : List Move}
    (h : course Journal.note (opening s) .blank moves = (d, j)) (hsound : j.sound = true) :
    (∀ clientId o last, d.session.tracker.get? clientId = some o → o.lastSequence = some last →
      last ≤ d.session.tracker.sequencer.last) ∧
    (Unambiguous j.given →
      ∀ started expired call s₁ p finished delivery s' answer,
        d.session.start started expired call = .ok (s₁, .ok p) →
        s₁.finish finished p delivery = .ok (s', .ok answer) →
        ∃ told, call.Tells answer told ∧ (∀ report ∈ told, report.sequence = p.sequence) ∧
          ∀ clientId o exchangeId report, d.session.tracker.get? clientId = some o →
            o.isTerminal = false → o.exchangeId = some exchangeId →
            told.find? (fun r => r.exchangeId = exchangeId) = some report →
            ∃ o', s'.tracker.get? clientId = some o' ∧ o.SameOrder o' ∧
              o'.Shows (report.toUpdate clientId)) := by
  have horderly := (orderly_of_course hs h hsound).tracker
  refine ⟨horderly.sequenced, ?_⟩
  intro hunique started expired call s₁ p finished delivery s' answer hstart hfinish
  cases hpolls : call.polls with
  | false =>
    refine ⟨[], .silent answer hpolls, ?_, ?_⟩
    · intro report hreport
      cases hreport
    · intro clientId o exchangeId report _ _ _ hfirst
      cases hfirst
  | true =>
    obtain ⟨hplan, _, htracker, hplace⟩ := Session.sent_of_poll hstart hpolls
    obtain ⟨told, hplaces, hobserved, htells⟩ := Session.hears_of_finish hplan hpolls hfinish
    refine ⟨told, htells answer rfl, hplaces, ?_⟩
    intro clientId o exchangeId report ho hongoing hid hfirst
    have ho₁ : s₁.tracker.get? clientId = some o := by
      rw [htracker]
      exact ho
    have hindexed : s₁.tracker.clientId? exchangeId = some clientId := by
      rw [htracker]
      exact horderly.indexed hunique clientId o exchangeId ho hid
    have hbefore : o.Before p.sequence := by
      rw [hplace]
      exact horderly.before_nextSequence ho started.sequencer
    refine ⟨o.advance (report.toUpdate clientId), ?_, o.sameOrder_advance _, o.shows_advance _⟩
    rw [hobserved]
    exact OrderTracker.get?_observeAll ho₁ hongoing hbefore hid hindexed hplaces hfirst

/-- An order is followed, and a part of it is executed as another source reports. -/
def partlyExecuted : List Move :=
  [.track { InFlightOrder.onBook with lastSequence := none }, .nextSequence ⟨5000, false⟩,
    .applyUpdate (InFlightOrder.sighting (some "e1") .partiallyFilled 5000)]

/-- The exchange reports the order as filled. -/
def filledReply : Http.Delivery :=
  .reply ⟨200, "\x7b\"id\":\"e1\",\"status\":\"filled\"\x7d"⟩

/-- The clock has stepped back since the last observation, and yet the poll is taken in. -/
theorem fresh_steppedBack : ∃ s d j s₁ p s' report o,
    Session.create .default ⟨"key", "secret", none⟩ = .ok s ∧
    course Journal.note (opening s) .blank partlyExecuted = (d, j) ∧ j.sound = true ∧
    Unambiguous j.given ∧
    d.session.start (.still ⟨0, false⟩) false (.status "e1") = .ok (s₁, .ok p) ∧
    s₁.finish (.still ⟨0, false⟩) p filledReply = .ok (s', .ok (.report report)) ∧
    s'.tracker.get? "id" = some o ∧ o.state = .filled ∧ o.lastSequence = some p.sequence := by
  obtain ⟨s, d, j, o₀, s₁, p, hs, hcourse, hj, ho, hongoing, hid, hstart, herrand, hclock⟩ :
      ∃ s d j o s₁ p, Session.create .default ⟨"key", "secret", none⟩ = .ok s ∧
        course Journal.note (opening s) .blank partlyExecuted = (d, j) ∧
        j = ⟨[5000], [("e1", "id"), ("e1", "id")], true⟩ ∧
        d.session.tracker.get? "id" = some o ∧ o.isTerminal = false ∧ o.exchangeId = some "e1" ∧
        d.session.start (.still ⟨0, false⟩) false (.status "e1") = .ok (s₁, .ok p) ∧
        p.errand = .status "e1" ∧ s₁.serverNow ⟨0, false⟩ = .ok ⟨0, false⟩ :=
    ⟨_, _, _, _, _, _, rfl, rfl, rfl, rfl, rfl, rfl, rfl, rfl, rfl⟩
  have hsound : j.sound = true := by rw [hj]
  have hunique : Unambiguous j.given := by
    rw [hj]
    intro exchangeId a b ha hb
    simp only [List.mem_cons, Prod.mk.injEq, List.not_mem_nil, or_false, or_self] at ha hb
    rw [ha.2, hb.2]
  obtain ⟨s', report, hfinish, hreported, hfilled⟩ :
      ∃ s' report, s₁.finish (.still ⟨0, false⟩) p filledReply = .ok (s', .ok (.report report)) ∧
        report.exchangeId = "e1" ∧ report.state = .filled := by
    have hreply : filledReply.orderReply? =
        some ⟨"e1", none, none, none, none, none, none, none, none, "filled", none, none⟩ := by
      decide +kernel
    obtain ⟨response, hresponse, hsuccess, hdecode⟩ := Http.Delivery.orderReply?_eq_some hreply
    have hrecorded : (s₁.record p.reservation).serverNow ⟨0, false⟩ = .ok ⟨0, false⟩ := hclock
    simp only [Session.finish, hresponse, Session.settle, hsuccess, if_true, herrand,
      Readings.still, Session.takeBody, Session.taking, Session.readBody, hdecode,
      Session.takeStatus, hrecorded]
    exact ⟨_, _, rfl, rfl, rfl⟩
  obtain ⟨told, htells, hplaces, hshown⟩ :=
    (fresh_of_course (.created hs) hcourse hsound).2 hunique (.still ⟨0, false⟩) false _ s₁ p
      (.still ⟨0, false⟩) _ s' _ hstart hfinish
  cases htells with
  | silent answer silent => cases silent
  | status exchangeId report =>
    obtain ⟨o, ho', _, hshows⟩ := hshown "id" o₀ "e1" report ho hongoing hid
      (List.find?_cons_of_pos (by simp [hreported]))
    exact ⟨s, d, j, s₁, p, s', report, o, hs, hcourse, hsound, hunique, hstart, hfinish, ho',
      hshows.state.trans hfilled,
      hshows.lastSequence.trans (congrArg some (hplaces report List.mem_cons_self))⟩

end Dialogue

end SpotGateway
