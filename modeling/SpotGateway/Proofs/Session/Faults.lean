import SpotGateway.Proofs.Decimal.Difference
import SpotGateway.Proofs.RateLimit.Timely
import SpotGateway.Proofs.Session.Steps

/-!
# Where calls are stopped

The two halves of a call that submits no order are stopped in two ways only: the exchange's time is
asked for where it lies outside the calendar, or the executed amount of an entry of a list is a
difference that no decimal holds.

* `Session.OffCalendar`, `Session.serverNow_eq_error_iff` — the exchange's time cannot be told;
* `Session.Signs`, `Session.requestOf_eq_error_iff`, `Session.start_eq_error_iff` — starting;
* `OrderListEntry.Overdraws`, `OrderListEntry.executed_eq_error_iff`, `Overdrawn`,
  `Session.takeReports_eq_error_iff` — lists of orders;
* `Errand.Dates`, `Session.takeBody_eq_error_iff`, `Session.finish_eq_error_iff` — finishing.
-/

set_option autoImplicit false

namespace SpotGateway

/-! ## Entries of lists -/

/-- The executed amount has to be told as the difference of two sizes, and the whole number nearest
to it leaves 96 bits. -/
def OrderListEntry.Overdraws (e : OrderListEntry) : Prop :=
  e.tradeSize = none ∧ ∃ placed, e.placedSize = some placed ∧
    coefficientLimit ≤
      Decimal.halfEven (placed.difference e.size).natAbs (max placed.scale e.size.scale)

theorem OrderListEntry.executed_eq_error_iff {e : OrderListEntry} {fault : Fault} :
    e.executed = .error fault ↔ fault = .decimalOverflow ∧ e.Overdraws := by
  unfold executed Overdraws
  cases e.tradeSize with
  | some traded => simp
  | none =>
    cases e.placedSize with
    | none => simp
    | some placed =>
      simp only [bind_eq_error, Decimal.sub_eq_error_iff, pure, Except.pure, reduceCtorEq, and_false,
        exists_false, or_false, true_and, Option.some.injEq, exists_eq_left']

/-- An entry overdraws, and the statuses of it and of those before it are known. -/
def Overdrawn (entries : List OrderListEntry) : Prop :=
  ∃ before e after, entries = before ++ e :: after ∧
    (∀ known ∈ before ++ [e], ∃ state, Status.normalize known.status = .ok state) ∧ e.Overdraws

theorem not_overdrawn_nil : ¬ Overdrawn [] := by
  rintro ⟨before, e, after, hentries, _⟩
  cases before <;> cases hentries

theorem overdrawn_cons_iff {e : OrderListEntry} {rest : List OrderListEntry} :
    Overdrawn (e :: rest) ↔ (∃ state, Status.normalize e.status = .ok state) ∧
      (e.Overdraws ∨ Overdrawn rest) := by
  constructor
  · rintro ⟨before, e', after, hentries, hknown, hover⟩
    cases before with
    | nil =>
      cases hentries
      exact ⟨hknown e List.mem_cons_self, Or.inl hover⟩
    | cons first before =>
      cases hentries
      exact ⟨hknown e List.mem_cons_self, Or.inr ⟨before, e', after, rfl,
        fun known hmem => hknown known (List.mem_cons_of_mem _ hmem), hover⟩⟩
  · rintro ⟨hstatus, hover | ⟨before, e', after, rfl, hknown, hover⟩⟩
    · refine ⟨[], e, rest, rfl, fun known hmem => ?_, hover⟩
      rw [List.mem_singleton.mp hmem]
      exact hstatus
    · refine ⟨e :: before, e', after, rfl, fun known hmem => ?_, hover⟩
      rcases List.mem_cons.mp hmem with rfl | hmem
      · exact hstatus
      · exact hknown known hmem

/-! ## Errands -/

/-- The errand asks for a list of orders. -/
def Errand.lists : Errand → Bool
  | .openOrders | .allOrders => true
  | _ => false

/-- What is reported in the body of a successful reply is dated by the exchange's time. -/
def Errand.Dates (e : Errand) (body : String) : Prop :=
  match e with
  | .cancel exchangeId => ∃ reply state, Json.decode CancelReply.decoder body = .ok reply ∧
      Session.cancelledState exchangeId reply = .ok state
  | .status _ => ∃ reply, Json.decode OrderReply.decoder body = .ok reply
  | .openOrders | .allOrders =>
    ∃ entries, Json.decode (Json.Decoder.list OrderListEntry.decoder) body = .ok entries
  | _ => False

namespace Session

variable {s : Session} {now : Timestamp} {fault : Fault}

/-! ## The exchange's time -/

/-- The exchange's time lies outside the calendar. -/
def OffCalendar (s : Session) (now : Timestamp) : Prop :=
  Timestamp.inRange (now.nanos + s.clock.offsetMillis * 1000000) = false

theorem serverNow_eq_error_iff :
    s.serverNow now = .error fault ↔ fault = .dateOverflow ∧ s.OffCalendar now := by
  unfold serverNow ServerClock.read Timestamp.plus Timestamp.ofNanos? OffCalendar
  cases Timestamp.inRange (now.nanos + s.clock.offsetMillis * 1000000) <;>
    simp [Fault.orElse, eq_comm]

theorem serverNow_eq_ok_iff :
    (∃ t, s.serverNow now = .ok t) ↔ ¬ s.OffCalendar now := by
  cases h : s.serverNow now with
  | error fault => simp [(serverNow_eq_error_iff.mp h).2]
  | ok t =>
    have : ¬ s.OffCalendar now := fun hoff => by
      have := serverNow_eq_error_iff.mpr ⟨rfl, hoff⟩
      rw [h] at this
      cases this
    simp [this]

/-! ## Starting -/

/-- The request of the errand carries a signature over the exchange's time. -/
def Signs (s : Session) (e : Errand) : Prop :=
  e.endpoint.needsAuthentication = true ∧ s.authenticator.scheme = .hmacSha256 ∧
    s.signsServerTime = true

theorem requestOf_eq_error_iff {e : Errand} :
    s.requestOf now e = .error fault ↔
      fault = .dateOverflow ∧ s.Signs e ∧ s.OffCalendar now := by
  unfold requestOf Signs
  cases e.endpoint.needsAuthentication with
  | false => simp
  | true =>
    simp only [if_true, true_and]
    unfold Authenticator.decorate
    cases s.authenticator.scheme with
    | bearerToken => simp
    | hmacSha256 =>
      unfold signingTime
      cases s.signsServerTime with
      | false => simp [bind, Except.bind, pure, Except.pure]
      | true => simp [bind_eq_error, serverNow_eq_error_iff, pure, Except.pure]

/-- Calls that submit no order are planned at any time. -/
theorem plan_isOk (s : Session) (now : Timestamp) {call : Call}
    (h : ∀ order nonce, call ≠ .place order nonce) :
    ∃ planned, s.plan now call = .ok planned := by
  cases call with
  | place order nonce => exact absurd rfl (h order nonce)
  | _ => exact ⟨_, rfl⟩

/-- What stops an errand before its request is sent. -/
theorem issue_eq_error_iff {now : Readings} {expired : Bool} {e : Errand}
    (hreserve : ∃ r, s.limiter.reserve e.endpoint.tier now.limiter = .ok r) :
    s.issue now expired e = .error fault ↔ fault = .dateOverflow ∧ s.Signs e ∧
      s.OffCalendar now.signature ∧ ∃ limiter reservation,
        s.limiter.reserve e.endpoint.tier now.limiter = .ok (limiter, .ok reservation) := by
  obtain ⟨⟨limiter, admitted⟩, hreserve⟩ := hreserve
  simp only [issue, hreserve, bind_eq_error, reduceCtorEq, false_or, Except.ok.injEq,
    exists_eq_left']
  cases admitted with
  | error refusal => simp [pure, Except.pure]
  | ok reservation =>
    -- the request is the same before and after the reservation
    have hrequest : requestOf { s with limiter } now.signature e = s.requestOf now.signature e := rfl
    simp only [bind_eq_error, hrequest, requestOf_eq_error_iff]
    constructor
    · rintro (⟨hfault, hsigns, hoff⟩ | ⟨request, _, hstopped⟩)
      · exact ⟨hfault, hsigns, hoff, limiter, reservation, rfl⟩
      · split at hstopped
        · cases hstopped
        · split at hstopped <;> cases hstopped
    · rintro ⟨hfault, hsigns, hoff, _⟩
      exact Or.inl ⟨hfault, hsigns, hoff⟩

/-- **What stops a call from being started.**  Its request is admitted and has to be signed, and the
exchange's time lies outside the calendar. -/
theorem start_eq_error_iff {now : Readings} (hlimiter : s.limiter.Timely)
    (hnow : now.limiter.Ordinary) {expired : Bool} {call : Call}
    (hcall : ∀ order nonce, call ≠ .place order nonce) :
    s.start now expired call = .error fault ↔ fault = .dateOverflow ∧
      s.OffCalendar now.signature ∧ ∃ e limiter reservation,
        s.plan now.record call = .ok (.ok e) ∧ s.Signs e ∧
        s.limiter.reserve e.endpoint.tier now.limiter = .ok (limiter, .ok reservation) := by
  obtain ⟨planned, hplan⟩ := plan_isOk s now.record hcall
  have hreserve : ∀ tier, ∃ r, s.limiter.reserve tier now.limiter = .ok r := fun tier =>
    Limiter.reserve_isOk tier hlimiter.rise (hlimiter.endsInRange hnow)
  simp only [start, hplan, bind_eq_error, reduceCtorEq, false_or, Except.ok.injEq,
    exists_eq_left']
  cases planned with
  | error error => simp [pure, Except.pure]
  | ok e =>
    rw [issue_eq_error_iff (hreserve _)]
    constructor
    · rintro ⟨hfault, hsigns, hoff, limiter, reservation, hadmitted⟩
      exact ⟨hfault, hoff, e, limiter, reservation, rfl, hsigns, hadmitted⟩
    · rintro ⟨hfault, hoff, e', limiter, reservation, he, hsigns, hadmitted⟩
      cases he
      exact ⟨hfault, hsigns, hoff, limiter, reservation, hadmitted⟩

/-! ## Finishing -/

/-- A reply that is read first stops a session only if it can be read. -/
theorem taking_eq_error_iff {α : Type} {result : Except GatewayError α}
    {take : α → Checked (Session × Except GatewayError Answer)} :
    s.taking result take = .error fault ↔ ∃ a, result = .ok a ∧ take a = .error fault := by
  unfold taking
  cases result <;> simp

/-- A chain whose second step only hands on what the first one made. -/
theorem bind_pure_eq_error_iff {α β : Type} {x : Checked α} {f : α → β} :
    (do let a ← x; return f a : Checked β) = .error fault ↔ x = .error fault := by
  cases x <;> simp [bind, Except.bind, pure, Except.pure]

theorem takeCancelled_eq_error_iff {exchangeId : String} {sequence : Nat} {reply : CancelReply} :
    s.takeCancelled now exchangeId sequence reply = .error fault ↔
      fault = .dateOverflow ∧ s.OffCalendar now ∧
        ∃ state, cancelledState exchangeId reply = .ok state := by
  unfold takeCancelled
  cases cancelledState exchangeId reply with
  | error error => simp
  | ok state =>
    rw [bind_pure_eq_error_iff, serverNow_eq_error_iff]
    simp

theorem takeStatus_eq_error_iff {sequence : Nat} {reply : OrderReply} :
    s.takeStatus now sequence reply = .error fault ↔ fault = .dateOverflow ∧ s.OffCalendar now := by
  unfold takeStatus
  rw [bind_eq_error, serverNow_eq_error_iff]
  refine or_iff_left ?_
  rintro ⟨receivedAt, _, hstopped⟩
  split at hstopped <;> cases hstopped

/-- The entries of a list stop a session exactly if one of them overdraws. -/
theorem takeReports_eq_error_iff {sequence : Nat} {entries : List OrderListEntry} :
    s.takeReports now sequence entries = .error fault ↔
      fault = .decimalOverflow ∧ Overdrawn entries := by
  induction entries generalizing s with
  | nil => simp [takeReports, not_overdrawn_nil]
  | cons e rest ih =>
    rw [overdrawn_cons_iff]
    unfold takeReports
    cases Status.normalize e.status with
    | error error => simp
    | ok state =>
      have hstopped : ∀ f, s.reportOf now sequence state e = .error f ↔
          f = .decimalOverflow ∧ e.Overdraws := by
        intro f
        rw [reportOf, bind_pure_eq_error_iff, OrderListEntry.executed_eq_error_iff]
      simp only [bind_eq_error (x := s.reportOf now sequence state e), bind_pure_eq_error_iff, ih,
        hstopped]
      cases hreport : s.reportOf now sequence state e with
      | ok report =>
        have hnot : ¬ e.Overdraws := fun hover => by
          have := (hstopped _).mpr ⟨rfl, hover⟩
          rw [hreport] at this
          cases this
        simp [hnot]
      | error f =>
        have hover := ((hstopped f).mp hreport).2
        simp [hover]

/-- What stops a session that is given a list of orders: the list cannot be dated, or else one of
its entries overdraws. -/
theorem takeOrderList_eq_error_iff {sequence : Nat} {e : Errand} {body : String} :
    s.takeOrderList now sequence e body = .error fault ↔
      ∃ entries, Json.decode (Json.Decoder.list OrderListEntry.decoder) body = .ok entries ∧
        (fault = .dateOverflow ∧ s.OffCalendar now ∨
          fault = .decimalOverflow ∧ ¬ s.OffCalendar now ∧ Overdrawn entries) := by
  unfold takeOrderList
  simp only [taking_eq_error_iff, readBody_eq_ok_iff]
  refine exists_congr fun entries => and_congr_right fun _ => ?_
  rw [bind_eq_error, serverNow_eq_error_iff]
  refine or_congr_right ?_
  simp only [bind_pure_eq_error_iff, takeReports_eq_error_iff]
  rw [← serverNow_eq_ok_iff]
  constructor
  · rintro ⟨receivedAt, hnow, hfault, hover⟩
    exact ⟨hfault, ⟨receivedAt, hnow⟩, hover⟩
  · rintro ⟨hfault, ⟨receivedAt, hnow⟩, hover⟩
    exact ⟨receivedAt, hnow, hfault, hover⟩

/-- The body of a successful reply cannot be taken in: what it reports has to be dated outside the
calendar, or one of the orders that it lists is overdrawn. -/
def Stuck (s : Session) (now : Timestamp) (e : Errand) (body : String) (fault : Fault) : Prop :=
  fault = .dateOverflow ∧ s.OffCalendar now ∧ e.Dates body ∨
    fault = .decimalOverflow ∧ ¬ s.OffCalendar now ∧ e.lists = true ∧
      ∃ entries, Json.decode (Json.Decoder.list OrderListEntry.decoder) body = .ok entries ∧
        Overdrawn entries

/-- What stops a session that is given the reply to a call that submits no order. -/
theorem takeBody_eq_error_iff {sequence : Nat} {e : Errand} (he : e.submitted = none)
    {body : String} :
    s.takeBody now sequence e body = .error fault ↔ s.Stuck now e body fault := by
  have hlist : s.takeOrderList now sequence e body = .error fault ↔
      fault = .dateOverflow ∧ s.OffCalendar now ∧
        (∃ entries, Json.decode (Json.Decoder.list OrderListEntry.decoder) body = .ok entries) ∨
      fault = .decimalOverflow ∧ ¬ s.OffCalendar now ∧
        ∃ entries, Json.decode (Json.Decoder.list OrderListEntry.decoder) body = .ok entries ∧
          Overdrawn entries := by
    rw [takeOrderList_eq_error_iff]
    constructor
    · rintro ⟨entries, hdecode, ⟨hfault, hoff⟩ | ⟨hfault, hon, hover⟩⟩
      · exact Or.inl ⟨hfault, hoff, entries, hdecode⟩
      · exact Or.inr ⟨hfault, hon, entries, hdecode, hover⟩
    · rintro (⟨hfault, hoff, entries, hdecode⟩ | ⟨hfault, hon, entries, hdecode, hover⟩)
      · exact ⟨entries, hdecode, Or.inl ⟨hfault, hoff⟩⟩
      · exact ⟨entries, hdecode, Or.inr ⟨hfault, hon, hover⟩⟩
  unfold Stuck
  cases e with
  | place order symbol => cases he
  | cancel exchangeId =>
    simp only [takeBody, taking_eq_error_iff, readBody_eq_ok_iff, bind_pure_eq_error_iff,
      takeCancelled_eq_error_iff, Errand.Dates, Errand.lists]
    grind
  | status exchangeId =>
    simp only [takeBody, taking_eq_error_iff, readBody_eq_ok_iff, bind_pure_eq_error_iff,
      takeStatus_eq_error_iff, Errand.Dates, Errand.lists]
    grind
  | openOrders =>
    simp only [takeBody, hlist, Errand.Dates, Errand.lists, true_and]
  | allOrders =>
    simp only [takeBody, hlist, Errand.Dates, Errand.lists, true_and]
  | syncTime sentAt =>
    simp [takeBody, taking_eq_error_iff, Errand.Dates, Errand.lists]
  | exchangeInfo =>
    simp [takeBody, taking_eq_error_iff, Errand.Dates, Errand.lists]
  | _ => simp [takeBody, answer, Errand.Dates, Errand.lists]

/-- **What stops a call from being finished.**  Its reply is a successful one whose body cannot be
taken in. -/
theorem finish_eq_error_iff {now : Readings} {p : Pending} (hp : p.errand.submitted = none)
    {delivery : Http.Delivery} :
    s.finish now p delivery = .error fault ↔ ∃ response, delivery = .reply response ∧
      response.isSuccess = true ∧ s.Stuck now.record p.errand response.body fault := by
  have hfailed : ∀ (s : Session) (error : GatewayError),
      s.afterFailure now p.errand error = .ok s := by
    intro s error
    simp only [afterFailure, hp]
  unfold finish
  cases delivery with
  | timedOut => simp [settle, hfailed, bind, Except.bind, pure, Except.pure]
  | failed error => simp [settle, hfailed, bind, Except.bind, pure, Except.pure]
  | reply response =>
    cases hsuccess : response.isSuccess with
    | false => simp [settle, hsuccess, hfailed, bind, Except.bind, pure, Except.pure]
    | true =>
      have hstuck : (s.record p.reservation).Stuck now.record p.errand response.body fault ↔
          s.Stuck now.record p.errand response.body fault := Iff.rfl
      simp [settle, hsuccess, takeBody_eq_error_iff hp, hstuck]

end Session

end SpotGateway
