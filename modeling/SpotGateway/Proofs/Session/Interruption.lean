import SpotGateway.Proofs.Session.Dialogue
import SpotGateway.Proofs.Session.Faults
import SpotGateway.Proofs.Session.Settlement
import SpotGateway.Proofs.Session.Submission

/-!
# What stops a session

At ordinary local times a run that places no orders is stopped by exactly three things: a request
that has to be signed while the exchange's time lies outside the calendar, a reply about orders that
has to be dated then, and a list of orders one of which is overdrawn.  Replies of moderate size
bring about none of them.

* `Move.Ordinary`, `Move.Moderate` — moves at ordinary local times, and replies of moderate size;
* `Dialogue.Stops`, `Dialogue.step_eq_error_iff` — what stops one move;
* `Dialogue.Timely`, `Dialogue.Steady` — what moves keep, and what moderate replies keep;
* `Dialogue.stops_of_run` — what stops a run;
* `Dialogue.stops_at_overdrawn`, `Dialogue.run_overdrawn` — a list of orders that stops one.
-/

set_option autoImplicit false

namespace SpotGateway

/-! ## Moves -/

/-- All that the clock says. -/
def Readings.times (now : Readings) : List Timestamp :=
  [now.record, now.limiter, now.signature, now.sequencer]

/-- The local times of a move. -/
def Move.times : Move → List Timestamp
  | .start now _ _ | .finish _ now _ => now.times
  | .nextSequence now | .usage _ now | .usages now => [now]
  | _ => []

/-- The move submits no order, and its local times are ordinary ones. -/
def Move.Ordinary (move : Move) : Prop :=
  (∀ time ∈ move.times, time.Ordinary) ∧
    ∀ now expired order nonce, move ≠ .start now expired (.place order nonce)

theorem Move.Ordinary.start {now : Readings} {expired : Bool} {call : Call}
    (h : Move.Ordinary (.start now expired call)) :
    now.record.Ordinary ∧ now.limiter.Ordinary ∧ now.signature.Ordinary := by
  refine ⟨h.1 _ ?_, h.1 _ ?_, h.1 _ ?_⟩ <;> simp [times, Readings.times]

theorem Move.Ordinary.finish {number : Nat} {now : Readings} {delivery : Http.Delivery}
    (h : Move.Ordinary (.finish number now delivery)) : now.record.Ordinary :=
  h.1 _ (by simp [times, Readings.times])

/-- Sizes that tell an executed amount are not negative. -/
def OrderListEntry.Moderate (e : OrderListEntry) : Prop :=
  e.tradeSize = none → ∀ placed, e.placedSize = some placed →
    Decimal.zero ≤ placed ∧ Decimal.zero ≤ e.size

/-- An instant that can be read from the body is an ordinary one, and so are the entries of a list
of orders. -/
structure Http.ModerateBody (body : String) : Prop where
  server : ∀ reply t, Json.decode ServerTime.decoder body = .ok reply →
    Timestamp.ofMillis? reply.millis = some t → t.Ordinary
  entries : ∀ es, Json.decode (Json.Decoder.list OrderListEntry.decoder) body = .ok es →
    ∀ e ∈ es, e.Moderate

/-- If the move brings a reply, its body is of moderate size. -/
def Move.Moderate (move : Move) : Prop :=
  ∀ number now response, move = .finish number now (.reply response) →
    Http.ModerateBody response.body

theorem OrderListEntry.Moderate.not_overdraws {e : OrderListEntry} (h : e.Moderate) :
    ¬ e.Overdraws := by
  rintro ⟨htrade, placed, hplaced, hover⟩
  obtain ⟨hnonneg, hsize⟩ := h htrade placed hplaced
  obtain ⟨d, hd⟩ := Decimal.sub_isOk_of_nonneg hnonneg hsize
  have hstopped := Decimal.sub_eq_error_iff.mpr ⟨rfl, hover⟩
  rw [hd] at hstopped
  cases hstopped

/-- A list of moderate entries is not overdrawn. -/
theorem not_overdrawn {es : List OrderListEntry} (h : ∀ e ∈ es, e.Moderate) : ¬ Overdrawn es := by
  rintro ⟨before, e, after, rfl, _, hover⟩
  exact (h e (List.mem_append_right _ List.mem_cons_self)).not_overdraws hover

namespace Dialogue

variable {d d' : Dialogue} {move : Move} {fault : Fault}

/-! ## What stops a move -/

/-- What stops a move. -/
inductive Stops (d : Dialogue) : Move → Fault → Prop where
  /-- A request is admitted that has to be signed, and the exchange's time lies outside the
  calendar. -/
  | unsigned {now : Readings} {expired : Bool} {call : Call} {e : Errand} {limiter : Limiter}
      {reservation : Reservation} (planned : d.session.plan now.record call = .ok (.ok e))
      (signs : d.session.Signs e) (outside : d.session.OffCalendar now.signature)
      (admitted : d.session.limiter.reserve e.endpoint.tier now.limiter =
        .ok (limiter, .ok reservation)) :
      Stops d (.start now expired call) .dateOverflow
  /-- A successful reply cannot be taken in. -/
  | stuck {number : Nat} {now : Readings} {p : Pending} {response : Http.Response} {fault : Fault}
      (waits : d.waiting[number]? = some p) (success : response.isSuccess = true)
      (stuck : d.session.Stuck now.record p.errand response.body fault) :
      Stops d (.finish number now (.reply response)) fault

/-- The limiter was used at ordinary times alone, and nothing is on its way that submits an order or
was sent at another time. -/
structure Timely (d : Dialogue) : Prop where
  limiter : d.session.limiter.Timely
  submitted : ∀ p ∈ d.waiting, p.errand.submitted = none
  sent : ∀ p ∈ d.waiting, ∀ sentAt, p.errand = .syncTime sentAt → sentAt.Ordinary

/-- What stops a move at an ordinary time. -/
theorem step_eq_error_iff (hd : d.Timely) (hmove : move.Ordinary) :
    d.step move = .error fault ↔ d.Stops move fault := by
  have htime := hmove.1
  have hcall := hmove.2
  cases move with
  | start now expired call =>
    rw [step, bind_eq_error, Session.start_eq_error_iff hd.limiter hmove.start.2.1
      fun order nonce he => hcall now expired order nonce (by rw [he])]
    constructor
    · rintro (⟨rfl, hoff, e, limiter, reservation, hplan, hsigns, hadmitted⟩ |
        ⟨⟨session, started⟩, _, hstopped⟩)
      · exact .unsigned hplan hsigns hoff hadmitted
      · cases started <;> cases hstopped
    · rintro ⟨hplan, hsigns, hoff, hadmitted⟩
      exact .inl ⟨rfl, hoff, _, _, _, hplan, hsigns, hadmitted⟩
  | finish number now delivery =>
    simp only [step]
    cases hwaits : d.waiting[number]? with
    | none =>
      constructor
      · intro hstopped
        cases hstopped
      · intro hstops
        cases hstops with
        | stuck waits _ _ =>
          rw [hwaits] at waits
          cases waits
    | some p =>
      simp only [Session.bind_pure_eq_error_iff]
      rw [Session.finish_eq_error_iff (hd.submitted p (List.mem_of_getElem? hwaits))]
      constructor
      · rintro ⟨response, rfl, hsuccess, hstuck⟩
        exact .stuck hwaits hsuccess hstuck
      · intro hstops
        cases hstops with
        | stuck waits hsuccess hstuck =>
          rw [hwaits] at waits
          cases waits
          exact ⟨_, rfl, hsuccess, hstuck⟩
  | usage tier now =>
    obtain ⟨result, husage⟩ :=
      Limiter.usage_isOk tier (hd.limiter.endsInRange (htime now List.mem_cons_self))
    simp only [step, husage]
    constructor <;> intro h <;> cases h
  | usages now =>
    obtain ⟨result, husages⟩ :=
      Limiter.usages_isOk (hd.limiter.endsInRange (htime now List.mem_cons_self))
    simp only [step, husages]
    constructor <;> intro h <;> cases h
  | _ => constructor <;> intro h <;> cases h

/-! ## What moves keep -/

theorem limiter_of_fresh {s : Session} (hs : s.Fresh) : s.limiter.Timely := by
  obtain ⟨_, _, _, table, htable, rfl⟩ := hs.eq
  exact Limiter.Timely.create htable

theorem Timely.opening {s : Session} (hs : s.Fresh) : (opening s).Timely where
  limiter := limiter_of_fresh hs
  submitted := fun p hp => by cases hp
  sent := fun p hp => by cases hp

/-- What is on its way after a call that submits no order was started. -/
theorem sends_of_start {s s' : Session} {now : Readings} {expired : Bool} {call : Call}
    {p : Pending} (hcall : ∀ order nonce, call ≠ .place order nonce)
    (hstart : s.start now expired call = .ok (s', .ok p)) :
    p.errand.submitted = none ∧ ∀ sentAt, p.errand = .syncTime sentAt → sentAt = now.record := by
  have hplan := Session.plan_of_start hstart
  rcases Session.plan_cases hplan with ⟨order, nonce, rfl, _⟩ | ⟨_, hsubmitted, _⟩
  · exact absurd rfl (hcall order nonce)
  · refine ⟨hsubmitted, fun sentAt he => ?_⟩
    rw [he] at hplan
    cases call with
    | place order nonce => exact absurd rfl (hcall order nonce)
    | ticker pair =>
      obtain ⟨symbol, _, he⟩ := Session.withSymbol_eq_ok.mp (Except.ok.inj hplan)
      cases he
    | bookTicker pair =>
      obtain ⟨symbol, _, he⟩ := Session.withSymbol_eq_ok.mp (Except.ok.inj hplan)
      cases he
    | trades pair =>
      obtain ⟨symbol, _, he⟩ := Session.withSymbol_eq_ok.mp (Except.ok.inj hplan)
      cases he
    | syncTime =>
      cases hplan
      rfl
    | _ => cases hplan

theorem limiter_of_start {s s' : Session} {now : Readings} {expired : Bool} {call : Call}
    {result : Except GatewayError Pending} (hlimiter : s.limiter.Timely)
    (hnow : now.limiter.Ordinary) (hstart : s.start now expired call = .ok (s', result)) :
    s'.limiter.Timely := by
  cases Session.started_of_start hstart with
  | refused error planned unchanged =>
    rw [unchanged]
    exact hlimiter
  | throttled errand limiter refusal planned reserved changed =>
    rw [changed]
    exact hlimiter.reserve hnow reserved
  | late errand limiter reservation planned reserved passed changed =>
    rw [changed]
    exact (hlimiter.reserve hnow reserved).release _
  | untracked errand limiter reservation order tracker error planned reserved intime submitted
      tracked changed =>
    rw [changed]
    exact (hlimiter.reserve hnow reserved).release _
  | sent errand limiter reservation request tracker planned reserved requested intime tracked
      changed =>
    rw [changed]
    exact hlimiter.reserve hnow reserved

theorem limiter_of_finish {s s' : Session} {now : Readings} {p : Pending}
    {delivery : Http.Delivery} {result : Except GatewayError Answer} (hlimiter : s.limiter.Timely)
    (hfinish : s.finish now p delivery = .ok (s', result)) : s'.limiter.Timely := by
  rw [Session.limiter_finish hfinish]
  split
  · exact hlimiter.release _
  · exact hlimiter.record _

theorem Timely.of_step (hd : d.Timely) (hmove : move.Ordinary) {reaction : Reaction}
    (hstep : d.step move = .ok (d', reaction)) : d'.Timely := by
  have htime := hmove.1
  have hcall := hmove.2
  cases move with
  | start now expired call =>
    obtain ⟨⟨session, started⟩, hstart, hstep⟩ := bind_eq_ok.mp hstep
    have hlimiter := limiter_of_start hd.limiter hmove.start.2.1 hstart
    cases started with
    | error error =>
      cases hstep
      exact ⟨hlimiter, hd.submitted, hd.sent⟩
    | ok p =>
      cases hstep
      obtain ⟨hsubmitted, hsent⟩ :=
        sends_of_start (fun order nonce he => hcall now expired order nonce (by rw [he])) hstart
      refine ⟨hlimiter, fun q hq => ?_, fun q hq sentAt he => ?_⟩
      · rcases List.mem_append.mp hq with hq | hq
        · exact hd.submitted q hq
        · rw [List.mem_singleton.mp hq]
          exact hsubmitted
      · rcases List.mem_append.mp hq with hq | hq
        · exact hd.sent q hq sentAt he
        · rw [List.mem_singleton.mp hq] at he
          rw [hsent sentAt he]
          exact hmove.start.1
  | finish number now delivery =>
    simp only [step] at hstep
    split at hstep
    · obtain ⟨⟨session, result⟩, hfinish, hstep⟩ := bind_eq_ok.mp hstep
      cases hstep
      exact ⟨limiter_of_finish hd.limiter hfinish,
        fun q hq => hd.submitted q (List.mem_of_mem_eraseIdx hq),
        fun q hq => hd.sent q (List.mem_of_mem_eraseIdx hq)⟩
    · cases hstep
      exact hd
  | usage tier now =>
    obtain ⟨⟨limiter, result⟩, husage, hstep⟩ := bind_eq_ok.mp hstep
    cases hstep
    exact ⟨hd.limiter.usage (htime now List.mem_cons_self) husage, hd.submitted, hd.sent⟩
  | usages now =>
    obtain ⟨⟨limiter, us⟩, husages, hstep⟩ := bind_eq_ok.mp hstep
    cases hstep
    exact ⟨hd.limiter.usages (htime now List.mem_cons_self) husages, hd.submitted, hd.sent⟩
  | _ =>
    cases hstep
    exact ⟨hd.limiter, hd.submitted, hd.sent⟩

/-! ## Moderate replies -/

/-- The exchange's clock is off by no more than twice the reach of ordinary times. -/
def Steady (d : Dialogue) : Prop :=
  -(2 * Timestamp.reach) ≤ d.session.clock.offsetMillis * 1000000 ∧
    d.session.clock.offsetMillis * 1000000 ≤ 2 * Timestamp.reach

theorem clock_of_fresh {s : Session} (hs : s.Fresh) : s.clock = .unshifted := by
  obtain ⟨_, _, _, table, _, rfl⟩ := hs.eq
  rfl

theorem Steady.opening {s : Session} (hs : s.Fresh) : (opening s).Steady := by
  have hclock : (Dialogue.opening s).session.clock = .unshifted := clock_of_fresh hs
  rw [Steady, hclock]
  decide

/-- Within the reach of ordinary times the exchange's time can be told. -/
theorem Steady.not_offCalendar (hd : d.Steady) {now : Timestamp} (hnow : now.Ordinary) :
    ¬ d.session.OffCalendar now := by
  obtain ⟨hlow, hhigh⟩ := hd
  obtain ⟨hearly, hlate⟩ := hnow
  have hrange : Timestamp.inRange (now.nanos + d.session.clock.offsetMillis * 1000000) = true :=
    Timestamp.inRange_of_le_reach (by omega) (by omega)
  rw [Session.OffCalendar, hrange]
  exact nofun

/-- A moderate reply shows a clock that is off by no more than that. -/
theorem offset_observed {server sentAt receivedAt : Timestamp} (hserver : server.Ordinary)
    (hsent : sentAt.Ordinary) (hreceived : receivedAt.Ordinary) :
    -(2 * Timestamp.reach) ≤
        (ServerClock.observed server sentAt receivedAt).offsetMillis * 1000000 ∧
      (ServerClock.observed server sentAt receivedAt).offsetMillis * 1000000 ≤
        2 * Timestamp.reach := by
  have hmid : -Timestamp.reach ≤ ServerClock.midpoint sentAt receivedAt ∧
      ServerClock.midpoint sentAt receivedAt ≤ Timestamp.reach := by
    unfold ServerClock.midpoint Timestamp.since
    unfold Timestamp.Ordinary at hsent hreceived
    omega
  unfold Timestamp.Ordinary at hserver
  have hdropped : ∀ nanos : Int, (nanos.tdiv 1000000 * 1000000).natAbs ≤ nanos.natAbs := by
    intro nanos
    rw [Int.natAbs_mul, Int.natAbs_tdiv]
    exact Nat.div_mul_le_self _ _
  have := hdropped (server.nanos - ServerClock.midpoint sentAt receivedAt)
  simp only [ServerClock.observed, ServerClock.ofNanos]
  omega

theorem clock_of_start {s s' : Session} {now : Readings} {expired : Bool} {call : Call}
    {result : Except GatewayError Pending} (hstart : s.start now expired call = .ok (s', result)) :
    s'.clock = s.clock := by
  obtain ⟨_, _, rfl⟩ := Session.changes_of_start hstart
  rfl

/-- Only the reply to a call that asks for the clock changes it. -/
theorem clock_of_finish {s s' : Session} {now : Readings} {p : Pending}
    {delivery : Http.Delivery} {result : Except GatewayError Answer}
    (hfinish : s.finish now p delivery = .ok (s', result)) :
    s'.clock = s.clock ∨ ∃ sentAt response server, p.errand = .syncTime sentAt ∧
      delivery = .reply response ∧ Session.serverTimeOf p.errand response.body = .ok server ∧
      s'.clock = .observed server sentAt now.record := by
  obtain ⟨s₁, settled, hsettle, _, hcases⟩ := Session.finish_cases hfinish
  have hclock : (s.settle now.limiter p.reservation delivery).1.clock = s.clock := by
    obtain ⟨_, hlimiter⟩ := s.changes_settle now.limiter p.reservation delivery
    rw [hlimiter]
  rw [hsettle] at hclock
  rcases hcases with ⟨error, _, _, hafter⟩ | ⟨body, rfl, hbody⟩
  · obtain ⟨tracker, rfl⟩ := Session.onlyOrders_afterFailure hafter
    exact Or.inl hclock
  · rcases Session.takeBody_cases hbody with ⟨tracker, rfl⟩ | ⟨sentAt, server, he, hserver, rfl⟩ |
      ⟨info, _, rfl⟩
    · exact Or.inl hclock
    · obtain ⟨response, rfl, _, hresponse⟩ := Session.reply_of_settle (congrArg Prod.snd hsettle)
      exact Or.inr ⟨sentAt, response, server, he, rfl, hresponse ▸ hserver, rfl⟩
    · refine Or.inl (Eq.trans ?_ hclock)
      unfold Session.takeExchangeInfo
      split <;> rfl

theorem Steady.of_step (hd : d.Steady) (htimely : d.Timely) (hmove : move.Ordinary)
    (hmoderate : move.Moderate) {reaction : Reaction} (hstep : d.step move = .ok (d', reaction)) :
    d'.Steady := by
  cases move with
  | start now expired call =>
    obtain ⟨⟨session, started⟩, hstart, hstep⟩ := bind_eq_ok.mp hstep
    have hclock := clock_of_start hstart
    cases started <;> cases hstep <;> rw [Steady, hclock] <;> exact hd
  | finish number now delivery =>
    simp only [step] at hstep
    split at hstep
    · rename_i p hwaits
      obtain ⟨⟨session, result⟩, hfinish, hstep⟩ := bind_eq_ok.mp hstep
      cases hstep
      rcases clock_of_finish hfinish with
        hclock | ⟨sentAt, response, server, he, rfl, hserver, hclock⟩
      · rw [Steady, hclock]
        exact hd
      · obtain ⟨reply, hreply, htime⟩ := bind_eq_ok.mp hserver
        rw [Steady, hclock]
        refine offset_observed ?_ (htimely.sent p (List.mem_of_getElem? hwaits) sentAt he)
          hmove.finish
        split at htime
        · rename_i ht
          cases htime
          exact (hmoderate number now response rfl).server reply server
            (Session.readBody_eq_ok_iff.mp hreply) ht
        · cases htime
    · cases hstep
      exact hd
  | usage tier now =>
    obtain ⟨⟨limiter, result⟩, _, hstep⟩ := bind_eq_ok.mp hstep
    cases hstep
    exact hd
  | usages now =>
    obtain ⟨⟨limiter, us⟩, _, hstep⟩ := bind_eq_ok.mp hstep
    cases hstep
    exact hd
  | _ =>
    cases hstep
    exact hd

/-- Nothing stops a moderate move of a steady dialogue. -/
theorem Steady.not_stops (hd : d.Steady) (hmove : move.Ordinary) (hmoderate : move.Moderate) :
    ¬ d.Stops move fault := by
  intro hstops
  cases hstops with
  | unsigned planned signs outside admitted => exact hd.not_offCalendar hmove.start.2.2 outside
  | stuck waits success stuck =>
    rcases stuck with ⟨_, hoff, _⟩ | ⟨_, _, _, entries, hdecode, hover⟩
    · exact hd.not_offCalendar hmove.finish hoff
    · exact not_overdrawn ((hmoderate _ _ _ rfl).entries entries hdecode) hover

/-- **What stops a session.**  A run that submits no orders, at ordinary local times and with any
deliveries, is stopped exactly if it comes to a move that is stopped: a request that is admitted and
has to be signed, or a successful reply about orders that has to be dated, while the exchange's time
lies outside the calendar, or a list of orders one of which has an executed amount that no decimal
holds.  Replies of moderate size lead to no such move: with them alone every run comes to its
end. -/
theorem stops_of_run {s : Session} (hs : s.Fresh) {moves : List Move}
    (hmoves : ∀ move ∈ moves, move.Ordinary) :
    (∀ fault, (opening s).run moves = .error fault ↔
      ∃ before move after d reactions, moves = before ++ move :: after ∧
        (opening s).run before = .ok (d, reactions) ∧ d.Stops move fault) ∧
    ((∀ move ∈ moves, move.Moderate) →
      ∃ d reactions, (opening s).run moves = .ok (d, reactions)) := by
  have hstops : ∀ fault, (opening s).run moves = .error fault ↔
      ∃ before move after d reactions, moves = before ++ move :: after ∧
        (opening s).run before = .ok (d, reactions) ∧ d.Stops move fault := by
    intro fault
    rw [run_eq_error_iff]
    refine exists_congr fun before => exists_congr fun move => exists_congr fun after =>
      exists_congr fun d => exists_congr fun reactions => ?_
    refine and_congr_right fun hsplit => and_congr_right fun hbefore => ?_
    subst hsplit
    have htimely : d.Timely := invariant_of_run
      (fun _ move _ _ hd hmem hstep => hd.of_step (hmoves move (List.mem_append_left _ hmem)) hstep)
      (Timely.opening hs) hbefore
    exact step_eq_error_iff htimely (hmoves move (List.mem_append_right _ List.mem_cons_self))
  refine ⟨hstops, fun hmoderate => ?_⟩
  cases hrun : (opening s).run moves with
  | ok result => exact ⟨result.1, result.2, rfl⟩
  | error fault =>
    obtain ⟨before, move, after, d, reactions, rfl, hbefore, hmove⟩ := (hstops fault).mp hrun
    have hsteady : d.Timely ∧ d.Steady := invariant_of_run
      (P := fun d => d.Timely ∧ d.Steady)
      (fun _ move _ _ hd hmem hstep =>
        ⟨hd.1.of_step (hmoves move (List.mem_append_left _ hmem)) hstep,
          hd.2.of_step hd.1 (hmoves move (List.mem_append_left _ hmem))
            (hmoderate move (List.mem_append_left _ hmem)) hstep⟩)
      ⟨Timely.opening hs, Steady.opening hs⟩ hbefore
    have hlast : move ∈ before ++ move :: after := List.mem_append_right _ List.mem_cons_self
    exact absurd hmove (hsteady.2.not_stops (hmoves move hlast) (hmoderate move hlast))

/-- A list of one order whose size is minus what it was placed with, both as large as decimals
get. -/
def overdrawnReply : Http.Delivery :=
  .reply ⟨200, "[\x7b\"id\":\"1\",\"market\":\"ETH/XLM\",\"status\":\"OPEN\",\"bids\":true," ++
    "\"originalSize\":\"79228162514264337593543950335\"," ++
    "\"size\":\"-79228162514264337593543950335\"\x7d]"⟩

/-- Open orders are asked for, and a list of them arrives. -/
def listing (delivery : Http.Delivery) : List Move :=
  [.start (.still ⟨0, false⟩) false .openOrders, .finish 0 (.still ⟨0, false⟩) delivery]

theorem ordinary_listing (delivery : Http.Delivery) :
    ∀ move ∈ listing delivery, move.Ordinary := by
  intro move hmove
  have hepoch : (⟨0, false⟩ : Timestamp).Ordinary := by decide
  simp only [listing, List.mem_cons, List.not_mem_nil, or_false] at hmove
  have hstill : ∀ time ∈ (Readings.still ⟨0, false⟩).times, time.Ordinary := by
    intro time htime
    simp only [Readings.times, Readings.still, List.mem_cons, List.not_mem_nil, or_false,
      or_self] at htime
    exact htime ▸ hepoch
  rcases hmove with rfl | rfl <;> refine ⟨hstill, fun now expired order nonce he => ?_⟩ <;> cases he

theorem fault_overdrawn : ∃ s, Session.create .default ⟨"key", "secret", none⟩ = .ok s ∧
    (opening s).run (listing overdrawnReply) = .error .decimalOverflow := by
  have hfault : (do
      let s ← (Session.create .default ⟨"key", "secret", none⟩).toOption
      match (opening s).run (listing overdrawnReply) with
      | .ok _ => none
      | .error fault => some fault) = some .decimalOverflow := by
    decide +kernel
  rw [Option.bind_eq_bind, Option.bind_eq_some_iff] at hfault
  obtain ⟨s, hs, hfault⟩ := hfault
  refine ⟨s, toOption_eq_some_iff.mp hs, ?_⟩
  split at hfault
  · cases hfault
  · rename_i fault hrun
    rw [hrun, Option.some.inj hfault]

/-- The overdrawn list stops the run, and an empty one does not. -/
theorem stops_at_overdrawn : ∃ s, Session.create .default ⟨"key", "secret", none⟩ = .ok s ∧
    (∃ before move after d reactions, listing overdrawnReply = before ++ move :: after ∧
      (opening s).run before = .ok (d, reactions) ∧ d.Stops move .decimalOverflow) ∧
    ∃ d reactions, (opening s).run (listing (.reply ⟨200, "[]"⟩)) = .ok (d, reactions) := by
  obtain ⟨s, hs, hrun⟩ := fault_overdrawn
  have hstops := (stops_of_run (.created hs) (ordinary_listing overdrawnReply)).1
  have hcomes := (stops_of_run (.created hs) (ordinary_listing (.reply ⟨200, "[]"⟩))).2
  refine ⟨s, hs, (hstops _).mp hrun, hcomes fun move hmove number now response he => ?_⟩
  subst he
  have hbody : response.body = "[]" := by
    simp only [listing, List.mem_cons, List.not_mem_nil, or_false, reduceCtorEq, false_or,
      Move.finish.injEq, Http.Delivery.reply.injEq] at hmove
    rw [hmove.2.2]
  have hserver : (Json.decode ServerTime.decoder "[]").toOption.isNone = true := by decide +kernel
  have hentries : (Json.decode (Json.Decoder.list OrderListEntry.decoder) "[]").toOption.map
      List.length = some 0 := by decide +kernel
  rw [hbody]
  refine ⟨fun reply t hreply => ?_, fun es hes e he => ?_⟩
  · rw [hreply] at hserver
    cases hserver
  · rw [hes] at hentries
    rw [List.length_eq_zero_iff.mp (Option.some.inj hentries)] at he
    cases he

/-- A successful reply at the epoch stops a session. -/
theorem run_overdrawn : ∃ s, Session.create .default ⟨"key", "secret", none⟩ = .ok s ∧
    (∀ move ∈ listing overdrawnReply, move.Ordinary) ∧
    (opening s).run (listing overdrawnReply) = .error .decimalOverflow := by
  obtain ⟨s, hs, hrun⟩ := fault_overdrawn
  exact ⟨s, hs, ordinary_listing overdrawnReply, hrun⟩

end Dialogue

end SpotGateway
