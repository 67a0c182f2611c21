import SpotGateway.Proofs.Session.Acceptance
import SpotGateway.Proofs.Session.Dialogue
import SpotGateway.Proofs.Session.Markets
import SpotGateway.Proofs.Session.Placing
import SpotGateway.Proofs.Session.Polls

/-!
# The ids of a session

Settings are checked once, when a session is opened, and never change.  So after every course of the
session the ids that it makes are acceptable, and those that are on record are there because a move
brought them.

* `Session.vacant_of_start`, `Session.vacant_of_finish` — what calls put on record;
* `Session.finish_of_vacant` — a reply to a submission that is not on record any more;
* `Move.Brings`, `Dialogue.NamedBy`, `Dialogue.namedBy_after` — where the ids on record come from;
* `Dialogue.acceptable_of_course`, `Dialogue.blamed_of_sharedDigits` — the ids that a session makes,
  after every course, and orders that fail on theirs.
-/

set_option autoImplicit false

namespace SpotGateway

namespace Session

variable {s s' : Session} {now : Timestamp} {expired : Bool} {clientId : String}

/-! ## What is on record -/

/-- Starting a call puts no order on record but the one that it places. -/
theorem vacant_of_start {now : Readings} {call : Call} {result : Except GatewayError Pending}
    (hstart : s.start now expired call = .ok (s', result))
    (hvacant : s.tracker.get? clientId = none)
    (hcall : ∀ order digits, call = .place order digits →
      ClientId.make s.config.idHead order.side digits ≠ clientId) :
    s'.tracker.get? clientId = none := by
  have tracking : ∀ e o, s.plan now.record call = .ok (.ok e) → e.submitted = some o →
      (s.tracker.track o).1.get? clientId = none := by
    intro e o hplan hsubmitted
    obtain ⟨order, digits, hplace, hid⟩ := clientId_of_plan hplan hsubmitted
    rw [OrderTracker.get?_track, if_neg, hvacant]
    intro hsame
    exact hcall order digits hplace (hid.symm.trans hsame.symm)
  cases started_of_start hstart with
  | refused error planned unchanged =>
    rw [unchanged]
    exact hvacant
  | throttled errand limiter refusal planned reserved changed =>
    rw [changed]
    exact hvacant
  | late errand limiter reservation planned reserved passed changed =>
    rw [changed]
    exact hvacant
  | untracked errand limiter reservation o tracker error planned reserved intime submitted tracked
      changed =>
    have hafter := tracking errand o planned submitted
    rw [tracked] at hafter
    rw [changed]
    exact hafter
  | sent errand limiter reservation request tracker planned reserved requested intime tracked
      changed =>
    rw [changed]
    cases hsubmitted : errand.submitted with
    | none =>
      simp only [hsubmitted] at tracked
      rw [tracked]
      exact hvacant
    | some o =>
      simp only [hsubmitted] at tracked
      have hafter := tracking errand o planned hsubmitted
      rw [tracked] at hafter
      exact hafter

/-- Finishing a call puts no order on record. -/
theorem vacant_of_finish {now : Readings} {p : Pending} {delivery : Http.Delivery}
    {r : Except GatewayError Answer} (hfinish : s.finish now p delivery = .ok (s', r))
    (hvacant : s.tracker.get? clientId = none) :
    s'.tracker.get? clientId = none := by
  obtain ⟨s₁, settled, hsettle, _, hcases⟩ := finish_cases hfinish
  rw [← tracker_settle s now.limiter p.reservation delivery, hsettle] at hvacant
  rcases hcases with ⟨error, _, _, hafter⟩ | ⟨body, _, hbody⟩
  · rcases afterFailure_cases hafter with ⟨rfl, _⟩ | ⟨_, u, _, _, _, _, _, _, rfl⟩
    · exact hvacant
    · exact OrderTracker.get?_apply_of_vacant
        (t := (s₁.nextSequence now.sequencer).1.tracker) hvacant u
  · rcases heard_or_placed hbody with ⟨heard, _, hheard⟩ | ⟨o, reply, state, time, _, _, hplaced⟩
    · rw [hheard]
      exact OrderTracker.get?_observeAll_of_vacant hvacant heard
    · rw [hplaced]
      exact OrderTracker.get?_apply_of_vacant hvacant _

/-- The reply to a submission is in vain where nothing is on record under the id any more. -/
theorem finish_of_vacant {now : Readings} {p : Pending} {o : InFlightOrder} {symbol : String}
    (hp : p.errand = .place o symbol) {delivery : Http.Delivery} {reply : OrderReply}
    (hreply : delivery.orderReply? = some reply) {state : OrderState}
    (hstatus : Status.normalize reply.status = .ok state) {time : Timestamp}
    (htime : s.replyTime now.record reply = .ok time) (hvacant : s.tracker.get? o.clientId = none) :
    s.finish now p delivery =
      .ok (s.record p.reservation, .error (.unknownOrder o.clientId)) := by
  have hrecorded : (s.record p.reservation).replyTime now.record reply = .ok time := htime
  have hunknown : ∀ u : OrderUpdate, u.clientId = o.clientId →
      (s.record p.reservation).takeUpdate u =
        (s.record p.reservation, .error (.unknownOrder o.clientId)) := by
    intro u hu
    have hnone : (s.record p.reservation).tracker.get? o.clientId = none := hvacant
    simp only [takeUpdate, applyUpdate, OrderTracker.apply, hu, hnone]
  rw [finish_of_orderReply hp hreply, takePlaced_eq, hstatus]
  simp only [hrecorded, bind, Except.bind, pure, Except.pure]
  rw [hunknown _ rfl]
  rfl

theorem vacant_of_attemptStart {now : Readings} {call : Call}
    {result : Checked (Except GatewayError Pending)}
    (half : s.attemptStart now expired call = (s', result))
    (hvacant : s.tracker.get? clientId = none)
    (hcall : ∀ order digits, call = .place order digits →
      ClientId.make s.config.idHead order.side digits ≠ clientId) :
    s'.tracker.get? clientId = none := by
  rcases attemptStart_cases half with ⟨answer, _, hstart⟩ | ⟨fault, _, _, hunsent⟩
  · exact vacant_of_start hstart hvacant hcall
  · obtain ⟨limiter, rfl⟩ := hunsent.changes
    exact hvacant

theorem vacant_of_attemptFinish {now : Readings} {p : Pending} {delivery : Http.Delivery}
    {result : Checked (Except GatewayError Answer)}
    (half : s.attemptFinish now p delivery = (s', result))
    (hvacant : s.tracker.get? clientId = none) : s'.tracker.get? clientId = none := by
  rcases attemptFinish_cases half with ⟨answer, _, hfinish⟩ | ⟨fault, heard, _, _, _, hleft⟩
  · exact vacant_of_finish hfinish hvacant
  · rw [hleft, tracker_foldl_observe, tracker_settle]
    exact OrderTracker.get?_observeAll_of_vacant hvacant heard

/-! ## Settings -/

theorem config_of_create {config : Config} {credentials : Credentials}
    (hs : create config credentials = .ok s) : s.config = config := by
  obtain ⟨table, _, rfl⟩ := create_eq_ok hs
  rfl

theorem config_of_attemptStart {now : Readings} {call : Call}
    {result : Checked (Except GatewayError Pending)}
    (half : s.attemptStart now expired call = (s', result)) : s'.config = s.config := by
  rcases attemptStart_cases half with ⟨answer, _, hstart⟩ | ⟨fault, _, _, hunsent⟩
  · obtain ⟨limiter, tracker, rfl⟩ := changes_of_start hstart
    rfl
  · obtain ⟨limiter, rfl⟩ := hunsent.changes
    rfl

theorem config_of_attemptFinish {now : Readings} {p : Pending} {delivery : Http.Delivery}
    {result : Checked (Except GatewayError Answer)}
    (half : s.attemptFinish now p delivery = (s', result)) : s'.config = s.config := by
  rcases attemptFinish_cases half with ⟨answer, _, hfinish⟩ | ⟨fault, heard, _, _, _, hleft⟩
  · exact (settings_of_finish hfinish).1
  · obtain ⟨limiter, hlimiter⟩ := s.changes_settle now.limiter p.reservation delivery
    rw [hleft, (onlyOrders_foldl_observe _ heard).keeps.config, hlimiter]

end Session

/-- The move brings an order under the client id: it follows one from elsewhere, or it places one for
which the id is made. -/
def Move.Brings (head clientId : String) : Move → Prop
  | .track o => o.clientId = clientId
  | .start _ _ (.place order digits) => ClientId.make head order.side digits = clientId
  | _ => False

namespace Dialogue

variable {d d' : Dialogue} {move : Move} {reaction : Checked Reaction}

/-! ## Courses -/

/-- No move changes the settings. -/
theorem config_of_attempt (hmove : d.attempt move = (d', reaction)) :
    d'.session.config = d.session.config := by
  cases attempted_of_attempt hmove with
  | sent half | refused half | unsent half => exact Session.config_of_attemptStart half
  | finished waits half => exact Session.config_of_attemptFinish half
  | _ => rfl

/-- Orders are on record only under ids that a move brings. -/
theorem vacant_of_attempt {clientId : String} (hmove : d.attempt move = (d', reaction))
    (hvacant : d.session.tracker.get? clientId = none)
    (hbrings : ¬ move.Brings d.session.config.idHead clientId) :
    d'.session.tracker.get? clientId = none := by
  cases attempted_of_attempt hmove with
  | sent half | refused half | unsent half =>
    refine Session.vacant_of_attemptStart half hvacant ?_
    rintro order digits rfl hmade
    exact hbrings hmade
  | finished waits half => exact Session.vacant_of_attemptFinish half hvacant
  | tracked o =>
    exact (OrderTracker.get?_track d.session.tracker o clientId).trans
      ((if_neg fun hsame => hbrings hsame.symm).trans hvacant)
  | updated u => exact OrderTracker.get?_apply_of_vacant hvacant u
  | acknowledged other =>
    cases hafter : (d.session.tracker.acknowledge other).1.get? clientId with
    | none => exact hafter
    | some o =>
      rw [OrderTracker.get?_of_get?_acknowledge hafter] at hvacant
      cases hvacant
  | _ => exact hvacant

/-- The settings are those that the session was opened with, and what is on record was brought by
one of the moves. -/
structure NamedBy (config : Config) (moves : List Move) (d : Dialogue) : Prop where
  settings : d.session.config = config
  brought : ∀ clientId o, d.session.tracker.get? clientId = some o →
    ∃ move ∈ moves, move.Brings config.idHead clientId

theorem namedBy_after {config : Config} {s : Session} (hs : s.Fresh) (hconfig : s.config = config)
    (moves : List Move) : NamedBy config moves ((opening s).after moves) := by
  refine after_invariant (P := NamedBy config moves) ?_ ?_
  · intro d hd move hmem
    refine ⟨(config_of_attempt rfl).trans hd.settings, fun clientId o ho => ?_⟩
    by_cases hmove : move.Brings config.idHead clientId
    · exact ⟨move, hmem, hmove⟩
    · cases hbefore : d.session.tracker.get? clientId with
      | some o' => exact hd.brought clientId o' hbefore
      | none =>
        have hstays : (d.attempt move).1.session.tracker.get? clientId = none :=
          vacant_of_attempt rfl hbefore (hd.settings.symm ▸ hmove)
        rw [hstays] at ho
        cases ho
  · obtain ⟨_, _, _, table, _, rfl⟩ := hs.eq
    refine ⟨hconfig, fun clientId o ho => ?_⟩
    cases ho

/-- **Ids that are made are acceptable.**  Let settings be accepted.  Then, for both sides and every
nonce, the exchange's rule takes the id that is made, and the id is the head of the settings, the
letter of the side, and at least eight of the digits that the nonce starts with.  So no order is
refused because the id that is made for it is malformed.  With any credentials a session can be
opened, and after every course of a session, whatever was stopped, an order fails on its id in two
cases only, which are that the id is on record before it is sent, and that it is not on record any
more when the reply is taken in:

* what is on record under an id was brought by a move of the course, which followed an order of that
  id from elsewhere or placed one for which the same id was made;
* what keeps an order from being sent is about an id only in one case, which is that an order is on
  record under the very id that was made for it, and all ids that are not on record fare alike;
* and an order that is sent is sent and on record under its id, which its body says, and whatever
  becomes of the request, its outcome at any later state of the session is no error about an id,
  unless nothing is on record under the id any more. -/
theorem acceptable_of_course {config : Config} (hvalid : config.validate = .ok ()) :
    (∀ side (nonce : Uuid), ClientId.Proper config.idHead side nonce
      (ClientId.make config.idHead side nonce.digits)) ∧
    (∀ credentials, ∃ s, Session.create config credentials = .ok s ∧ s.config = config) ∧
    ∀ s : Session, s.Fresh → s.config = config →
      ∀ moves d, (opening s).after moves = d →
        (∀ clientId o, d.session.tracker.get? clientId = some o →
          ∃ move ∈ moves, move.Brings config.idHead clientId) ∧
        ∀ now expired order (nonce : Uuid), d.session.PlacesUnder now expired order nonce
          (ClientId.make config.idHead order.side nonce.digits) := by
  obtain ⟨_, _, hhead⟩ := Config.validate_eq_ok_iff.mp hvalid
  refine ⟨ClientId.proper_make hhead, fun credentials => ?_, ?_⟩
  · obtain ⟨s, hs⟩ := Session.create_isOk hvalid credentials
    exact ⟨s, hs, Session.config_of_create hs⟩
  · rintro s hs hopened moves d rfl
    obtain ⟨hconfig, hbrought⟩ := namedBy_after hs hopened moves
    refine ⟨hbrought, fun now expired order nonce => ?_⟩
    have hhead' : Config.isIdHead ((opening s).after moves).session.config.idHead = true := by
      rw [hconfig]
      exact hhead
    have hplaces := Session.placesUnder_make hhead' now expired order nonce
    rw [hconfig] at hplaces
    exact hplaces

/-- A head that leaves room for eight digits and no more. -/
def longestHead : Config := { Config.default with idHead := "gateway-07-spot-desk-eu" }

/-- Symbols and rules are asked for, and arrive. -/
def catalogued : List Move :=
  [.start (.still ⟨0, false⟩) false .exchangeInfo, .finish 0 (.still ⟨0, false⟩) listedReply]

def drawn : Uuid := ⟨0x0f8fad5bd9cb469fa16570867728950e⟩

def soldUnit : OrderRequest := { Session.oneUnit with side := .sell }

/-- An order is sent under an id as long as the exchange takes. -/
theorem acceptable_longestHead : longestHead.validate = .ok () ∧
    ∃ (s : Session) (d : Dialogue) (s' : Session) (p : Pending) (o : InFlightOrder)
      (symbol : String),
    Session.create longestHead ⟨"key", "secret", none⟩ = .ok s ∧
    (opening s).after catalogued = d ∧
    d.session.start (.still ⟨0, false⟩) false (.place soldUnit drawn.digits) = .ok (s', .ok p) ∧
    p.request.Submits (o.submission symbol) ∧
    o.clientId = "gateway-07-spot-desk-euS0f8fad5b" ∧ ClientId.check o.clientId = .ok () ∧
    s'.tracker.get? o.clientId = some o := by
  have hvalid : longestHead.validate = .ok () := by decide +kernel
  obtain ⟨hproper, hopens, hcourses⟩ := acceptable_of_course hvalid
  obtain ⟨s, hs, hconfig⟩ := hopens ⟨"key", "secret", none⟩
  have hsent : (do
      let s ← (Session.create longestHead ⟨"key", "secret", none⟩).toOption
      let d := (opening s).after catalogued
      let started ←
        (d.session.start (.still ⟨0, false⟩) false (.place soldUnit drawn.digits)).toOption
      let p ← started.2.toOption
      return p.request.method) = some .post := by
    decide +kernel
  simp only [Option.bind_eq_bind, Option.bind_eq_some_iff, toOption_eq_some_iff] at hsent
  obtain ⟨s₁, hs₁, ⟨s', started⟩, hstart, p, rfl, _⟩ := hsent
  rw [hs] at hs₁
  cases hs₁
  obtain ⟨_, hplaces⟩ := hcourses s (.created hs) hconfig catalogued _ rfl
  obtain ⟨o, symbol, hid, hbody, htracked, _⟩ :=
    (hplaces (.still ⟨0, false⟩) false soldUnit drawn).sent s' p hstart
  have hmade : ClientId.make longestHead.idHead soldUnit.side drawn.digits =
      "gateway-07-spot-desk-euS0f8fad5b" := by
    decide +kernel
  have htaken := (hproper soldUnit.side drawn).taken
  rw [← hid] at htracked htaken
  exact ⟨hvalid, s, _, s', p, o, symbol, hs, rfl, hstart, hbody, hid.trans hmade, htaken, htracked⟩

/-- Another nonce, which starts with the same eight digits. -/
def drawnAlike : Uuid := ⟨0x0f8fad5b000000000000000000000000⟩

/-- An order that has come to an end elsewhere. -/
def filledElsewhere : OrderUpdate :=
  { clientId := "gateway-07-spot-desk-euS0f8fad5b", exchangeId := some "e1", state := .filled,
    executed := none, sequence := 1, time := ⟨0, false⟩ }

def openReply : Http.Delivery := .reply ⟨200, "\x7b\"id\":\"e1\",\"status\":\"OPEN\"\x7d"⟩

/-- Placing an order can fail on the id that was made for it.  Two nonces give one id, and the second
order is refused because the first is on record under it.  And an order that has come to an end, and
was let go of, is not on record any more when the reply to its submission arrives. -/
theorem blamed_of_sharedDigits :
    longestHead.validate = .ok () ∧ drawn ≠ drawnAlike ∧
    ∃ (s : Session) (d : Dialogue) (s₁ s₂ s₃ : Session) (p : Pending),
      Session.create longestHead ⟨"key", "secret", none⟩ = .ok s ∧
      (opening s).after catalogued = d ∧
      d.session.start (.still ⟨0, false⟩) false (.place soldUnit drawn.digits) = .ok (s₁, .ok p) ∧
      s₁.start (.still ⟨0, false⟩) false (.place soldUnit drawnAlike.digits) = .ok (s₂,
        .error (.invalidOrder (.alreadyTracked "gateway-07-spot-desk-euS0f8fad5b"))) ∧
      ((s₁.applyUpdate filledElsewhere).1.acknowledge filledElsewhere.clientId).1.finish
        (.still ⟨0, false⟩) p openReply =
          .ok (s₃, .error (.unknownOrder filledElsewhere.clientId)) := by
  have hvalid : longestHead.validate = .ok () := by decide +kernel
  have hcourse : (do
      let s ← (Session.create longestHead ⟨"key", "secret", none⟩).toOption
      let d := (opening s).after catalogued
      let placed ←
        (d.session.start (.still ⟨0, false⟩) false (.place soldUnit drawn.digits)).toOption
      let _ ← placed.2.toOption
      let reserved ← (placed.1.limiter.reserve Endpoint.placeOrder.tier ⟨0, false⟩).toOption
      let _ ← reserved.2.toOption
      let forgotten :=
        ((placed.1.applyUpdate filledElsewhere).1.acknowledge filledElsewhere.clientId).1
      return (forgotten.tracker.get? filledElsewhere.clientId,
        (forgotten.serverNow ⟨0, false⟩).toOption)) = some (none, some ⟨0, false⟩) := by
    decide +kernel
  simp only [Option.bind_eq_bind, Option.bind_eq_some_iff, toOption_eq_some_iff, Option.pure_def,
    Option.some.injEq, Prod.mk.injEq] at hcourse
  obtain ⟨s, hs, ⟨s₁, placed⟩, hstart, p, rfl, ⟨limiter, reserved⟩, hreserve, reservation, rfl, hgone,
    hclock⟩ := hcourse
  obtain ⟨d, hd⟩ : ∃ d, (opening s).after catalogued = d := ⟨_, rfl⟩
  rw [hd] at hstart
  have hconfig : d.session.config = longestHead :=
    hd ▸ (namedBy_after (.created hs) (Session.config_of_create hs) catalogued).settings
  have hhead : Config.isIdHead d.session.config.idHead = true := by
    rw [hconfig]
    exact (Config.validate_eq_ok_iff.mp hvalid).2.2
  have hmade : ClientId.make d.session.config.idHead soldUnit.side drawn.digits =
      filledElsewhere.clientId := by
    rw [hconfig]
    decide +kernel
  have hmadeAlike : ClientId.make d.session.config.idHead soldUnit.side drawnAlike.digits =
      filledElsewhere.clientId := by
    rw [hconfig]
    decide +kernel
  obtain ⟨s₂, hagain⟩ :=
    Session.start_of_sameId hhead hstart (hmadeAlike.trans hmade.symm) hreserve
  obtain ⟨o, symbol, hid, herrand, _⟩ := Session.named_of_start hstart
  rw [hmade] at hagain hid
  have hreply : openReply.orderReply? =
      some ⟨"e1", none, none, none, none, none, none, none, none, "OPEN", none, none⟩ := by
    decide +kernel
  have hfinish :
      ((s₁.applyUpdate filledElsewhere).1.acknowledge filledElsewhere.clientId).1.finish
        (.still ⟨0, false⟩) p openReply = .ok (_, .error (.unknownOrder o.clientId)) :=
    Session.finish_of_vacant herrand hreply rfl hclock (by rw [hid]; exact hgone)
  rw [hid] at hfinish
  exact ⟨hvalid, by decide, s, d, s₁, s₂, _, p, hs, hd, hstart, hagain, hfinish⟩

end Dialogue

end SpotGateway
