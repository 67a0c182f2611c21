import SpotGateway.Proofs.Session.Dialogue

/-!
# Every call settles its budget once

Budget that a call has reserved is handed back exactly once: as never used if the request did not
leave, as spent otherwise.  There is one exception.  A call is stopped after it got its budget if
its request has to be signed with a time that lies outside the calendar, and nobody hands that
budget back.

* `Http.Delivery.neverLeft` — the request did not leave;
* `Limiter.Undone`, `Limiter.Returned`, `Limiter.Spent` — what becomes of budget;
* `Session.Accounts`, `Session.accounts_of_attempt`, `Session.settles_of_attempt` — what the halves
  of a call do to budget, stopped or not;
* `Session.holds_and_stopped_iff` — calls that are stopped while they hold budget;
* `Tally`, `Dialogue.Settled`, `Dialogue.Settled.of_attempt` — what is counted, and the invariant;
* `Dialogue.settled_of_course` — what holds after every course.
-/

set_option autoImplicit false

namespace SpotGateway

/-- The request was not sent after all. -/
def Http.Delivery.neverLeft : Http.Delivery → Bool
  | .failed (.connect _) => true
  | _ => false

/-! ## What becomes of budget -/

namespace Limiter

variable {l l' : Limiter} {now : Timestamp} {tier : String} {r : Reservation}

/-- Budget was reserved and handed back at once: windows have been started for it where none was
running, and nothing else is left of it but its place in the statistics. -/
structure Undone (l : Limiter) (tier : String) (now : Timestamp) (l' : Limiter) : Prop where
  gauges : ∃ g, l.gauge? tier = some g ∧ l'.gauges = rollAll now g.quota.charges l.gauges
  stats : l'.stats = { l.stats with
    admitted := l.stats.admitted + 1, released := l.stats.released + 1 }

/-- The units of the reservation are back where the epoch they were taken from is still running. -/
structure Returned (l : Limiter) (r : Reservation) (l' : Limiter) : Prop where
  gauges : ∀ p : Nat, l'.gauges[p]? =
    l.gauges[p]?.map fun g => { g with used := g.used - r.unitsOf p g.epoch }
  stats : l'.stats = { l.stats with released := l.stats.released + 1 }

/-- The units of a reservation stay taken. -/
structure Spent (l l' : Limiter) : Prop where
  gauges : l'.gauges = l.gauges
  stats : l'.stats = { l.stats with recorded := l.stats.recorded + 1 }

theorem returned_release (h : r.limiter = l.id) : l.Returned r (l.release r) :=
  ⟨getElem?_release h, stats_release h⟩

theorem spent_record (h : r.limiter = l.id) : l.Spent (l.record r) :=
  ⟨gauges_record l r, stats_record h⟩

/-- What was just reserved comes back whole. -/
theorem undone_of_reserve (h : l.reserve tier now = .ok (l', .ok r)) :
    l.Undone tier now (l'.release r) := by
  obtain ⟨hissued, hstats⟩ := admitted_of_reserve h
  have hissued : r.limiter = l'.id := hissued.trans (id_reserve h).symm
  refine ⟨?_, by rw [stats_release hissued, hstats]⟩
  rcases reserve_cases h with ⟨_, _, hr⟩ | ⟨g, hg, ⟨_, _, _, hr⟩ | ⟨_, hl, hr⟩⟩
  · cases hr
  · cases hr
  · refine ⟨g, hg, List.ext_getElem? fun p => ?_⟩
    rw [getElem?_release hissued, hl, getElem?_chargeAll, Option.map_map]
    cases hr
    cases hp : (rollAll now g.quota.charges l.gauges)[p]? with
    | none => rfl
    | some rolled =>
      simp only [Option.map_some, Function.comp, unitsOf_holdingsOf, hp, Gauge.epoch_charge,
        if_true, Gauge.used_charge, Nat.add_sub_cancel]
      rfl

end Limiter

namespace Session

variable {s s' : Session} {now : Readings} {call : Call}

/-! ## Starting -/

/-- What a call that is started does to budget, stopped or not. -/
inductive Accounts (s : Session) (now : Readings) (expired : Bool) (call : Call) (s' : Session) :
    Checked (Except GatewayError Pending) → Prop where
  /-- Refused before anything was reserved. -/
  | refused (error : GatewayError) (planned : s.plan now.record call = .ok (.error error))
      (unchanged : s' = s) : Accounts s now expired call s' (.ok (.error error))
  /-- Refused by the limiter. -/
  | throttled (refusal : ThrottleError)
      (stats : s'.limiter.stats = s.limiter.stats ∨ s'.limiter.stats =
        { s.limiter.stats with rejected := s.limiter.stats.rejected + 1 }) :
      Accounts s now expired call s' (.ok (.error (.ofThrottle refusal)))
  /-- The deadline has passed: what was reserved is released. -/
  | late (errand : Errand) (passed : expired = true)
      (planned : s.plan now.record call = .ok (.ok errand))
      (undone : s.limiter.Undone errand.endpoint.tier now.limiter s'.limiter) :
      Accounts s now expired call s' (.ok (.error (.deadlineExceeded false)))
  /-- The order cannot be tracked: what was reserved is released. -/
  | untracked (errand : Errand) (order : InFlightOrder) (error : GatewayError)
      (intime : expired = false) (planned : s.plan now.record call = .ok (.ok errand))
      (submitted : errand.submitted = some order)
      (tracked : (s.tracker.track order).2 = .error error)
      (undone : s.limiter.Undone errand.endpoint.tier now.limiter s'.limiter) :
      Accounts s now expired call s' (.ok (.error error))
  /-- The request is handed to the transport. -/
  | sent (p : Pending) (intime : expired = false)
      (reserved : s.limiter.reserve p.errand.endpoint.tier now.limiter =
        .ok (s'.limiter, .ok p.reservation))
      (stats : s'.limiter.stats =
        { s.limiter.stats with admitted := s.limiter.stats.admitted + 1 }) :
      Accounts s now expired call s' (.ok (.ok p))
  /-- Stopped before anything was reserved. -/
  | unplanned (fault : Fault) (planned : s.plan now.record call = .error fault)
      (unchanged : s' = s) : Accounts s now expired call s' (.error fault)
  /-- Stopped while budget was asked for. -/
  | unreserved (errand : Errand) (fault : Fault)
      (planned : s.plan now.record call = .ok (.ok errand))
      (stopped : s.limiter.reserve errand.endpoint.tier now.limiter = .error fault)
      (stats : s'.limiter.stats = s.limiter.stats) : Accounts s now expired call s' (.error fault)
  /-- Stopped with what was reserved, which nobody hands back. -/
  | stranded (errand : Errand) (reservation : Reservation)
      (planned : s.plan now.record call = .ok (.ok errand)) (signs : s.Signs errand)
      (outside : s.OffCalendar now.signature)
      (reserved : s.limiter.reserve errand.endpoint.tier now.limiter =
        .ok (s'.limiter, .ok reservation))
      (stats : s'.limiter.stats =
        { s.limiter.stats with admitted := s.limiter.stats.admitted + 1 }) :
      Accounts s now expired call s' (.error .dateOverflow)

theorem accounts_of_start {expired : Bool} {result : Except GatewayError Pending}
    (h : s.start now expired call = .ok (s', result)) :
    s.Accounts now expired call s' (.ok result) := by
  cases started_of_start h with
  | refused error planned unchanged => exact .refused error planned unchanged
  | throttled errand limiter refusal planned reserved changed =>
    refine .throttled refusal ?_
    rw [changed]
    rcases Limiter.rejected_of_reserve reserved with ⟨hl, _⟩ | ⟨_, hstats⟩
    · exact Or.inl (congrArg Limiter.stats hl)
    · exact Or.inr hstats
  | late errand limiter reservation planned reserved passed changed =>
    refine .late errand passed planned ?_
    rw [changed]
    exact Limiter.undone_of_reserve reserved
  | untracked errand limiter reservation order tracker error planned reserved intime submitted
      tracked changed =>
    refine .untracked errand order error intime planned submitted (by rw [tracked]) ?_
    rw [changed]
    exact Limiter.undone_of_reserve reserved
  | sent errand limiter reservation request tracker planned reserved requested intime tracked
      changed =>
    refine .sent _ intime ?_ ?_ <;> rw [changed]
    · exact reserved
    · exact (Limiter.admitted_of_reserve reserved).2

theorem accounts_of_attempt {expired : Bool} {result : Checked (Except GatewayError Pending)}
    (h : s.attemptStart now expired call = (s', result)) :
    s.Accounts now expired call s' result := by
  rcases attemptStart_cases h with ⟨answer, rfl, hstart⟩ | ⟨fault, rfl, _, hunsent⟩
  · exact accounts_of_start hstart
  · cases hunsent with
    | unplanned planned unchanged => exact .unplanned fault planned unchanged
    | unreserved errand planned stopped changed =>
      refine .unreserved errand fault planned stopped ?_
      rw [changed]
      exact Limiter.stats_afterStoppedReserve _ _ _
    | stranded errand limiter reservation planned reserved overflow signs outside changed =>
      subst overflow
      refine .stranded errand reservation planned signs outside ?_ ?_ <;> rw [changed]
      · exact reserved
      · exact (Limiter.admitted_of_reserve reserved).2

/-- The call gets the budget for its request. -/
def holds (s : Session) (now : Readings) (call : Call) : Bool :=
  match s.plan now.record call with
  | .ok (.ok e) =>
    match s.limiter.reserve e.endpoint.tier now.limiter with
    | .ok (_, .ok _) => true
    | _ => false
  | _ => false

theorem holds_iff : s.holds now call = true ↔ ∃ e limiter reservation,
    s.plan now.record call = .ok (.ok e) ∧
      s.limiter.reserve e.endpoint.tier now.limiter = .ok (limiter, .ok reservation) := by
  unfold holds
  cases hplan : s.plan now.record call with
  | error fault => simp
  | ok planned =>
    cases planned with
    | error error => simp
    | ok e =>
      simp only [Except.ok.injEq, exists_eq_left', exists_and_left]
      rcases s.limiter.reserve e.endpoint.tier now.limiter with fault | ⟨limiter, error | r⟩ <;>
        simp

/-- **A call is stopped while it holds budget** exactly if its request is admitted and has to be
signed, and the exchange's time lies outside the calendar. -/
theorem holds_and_stopped_iff {expired : Bool} {fault : Fault} :
    s.start now expired call = .error fault ∧ s.holds now call = true ↔
      fault = .dateOverflow ∧ s.OffCalendar now.signature ∧ ∃ e limiter reservation,
        s.plan now.record call = .ok (.ok e) ∧ s.Signs e ∧
        s.limiter.reserve e.endpoint.tier now.limiter = .ok (limiter, .ok reservation) := by
  constructor
  · rintro ⟨hstopped, hholds⟩
    obtain ⟨e, limiter, reservation, hplan, hreserve⟩ := holds_iff.mp hholds
    cases unsent_of_stop hstopped with
    | unplanned planned unchanged =>
      rw [hplan] at planned
      cases planned
    | unreserved errand planned stopped changed =>
      rw [hplan] at planned
      cases planned
      rw [hreserve] at stopped
      cases stopped
    | stranded errand limiter reservation planned reserved overflow signs outside changed =>
      exact ⟨overflow, outside, errand, limiter, reservation, planned, signs, reserved⟩
  · rintro ⟨rfl, houtside, e, limiter, reservation, hplan, hsigns, hreserve⟩
    refine ⟨?_, holds_iff.mpr ⟨e, limiter, reservation, hplan, hreserve⟩⟩
    simp only [start, hplan, bind_eq_error, reduceCtorEq, false_or, Except.ok.injEq,
      exists_eq_left']
    rw [issue_eq_error_iff ⟨_, hreserve⟩]
    exact ⟨rfl, hsigns, houtside, limiter, reservation, hreserve⟩

/-- Starting a call does not change which limiter a session has. -/
theorem id_attemptStart {expired : Bool} {result : Checked (Except GatewayError Pending)}
    (h : s.attemptStart now expired call = (s', result)) : s'.limiter.id = s.limiter.id := by
  rcases attemptStart_cases h with ⟨answer, rfl, hstart⟩ | ⟨fault, rfl, _, hunsent⟩
  · cases started_of_start hstart with
    | refused error planned unchanged => rw [unchanged]
    | throttled errand limiter refusal planned reserved changed =>
      rw [changed]
      exact Limiter.id_reserve reserved
    | late errand limiter reservation planned reserved passed changed =>
      rw [changed]
      exact (Limiter.id_release _ _).trans (Limiter.id_reserve reserved)
    | untracked errand limiter reservation order tracker error planned reserved intime submitted
        tracked changed =>
      rw [changed]
      exact (Limiter.id_release _ _).trans (Limiter.id_reserve reserved)
    | sent errand limiter reservation request tracker planned reserved requested intime tracked
        changed =>
      rw [changed]
      exact Limiter.id_reserve reserved
  · cases hunsent with
    | unplanned planned unchanged => rw [unchanged]
    | unreserved errand planned stopped changed =>
      rw [changed]
      exact Limiter.id_afterStoppedReserve _ _ _
    | stranded errand limiter reservation planned reserved overflow signs outside changed =>
      rw [changed]
      exact Limiter.id_reserve reserved

/-! ## Finishing -/

/-- A call is settled as never used exactly if its request did not leave. -/
theorem limiter_settle (s : Session) (now : Timestamp) (r : Reservation)
    (delivery : Http.Delivery) : (s.settle now r delivery).1.limiter =
      if delivery.neverLeft then s.limiter.release r else s.limiter.record r := by
  cases delivery with
  | reply response => rfl
  | timedOut => rfl
  | failed error => cases error <;> rfl

theorem limiter_finish {p : Pending} {delivery : Http.Delivery}
    {result : Except GatewayError Answer} (h : s.finish now p delivery = .ok (s', result)) :
    s'.limiter = if delivery.neverLeft then s.limiter.release p.reservation
      else s.limiter.record p.reservation := by
  obtain ⟨s₁, settled, hsettle, hkeeps, _⟩ := finish_cases h
  rw [hkeeps.limiter, ← limiter_settle, hsettle]

theorem limiter_attemptFinish {p : Pending} {delivery : Http.Delivery}
    {result : Checked (Except GatewayError Answer)}
    (h : s.attemptFinish now p delivery = (s', result)) :
    s'.limiter = if delivery.neverLeft then s.limiter.release p.reservation
      else s.limiter.record p.reservation := by
  rcases attemptFinish_cases h with ⟨answer, _, hfinish⟩ | ⟨fault, heard, _, _, _, hleft⟩
  · exact limiter_finish hfinish
  · rw [← limiter_settle s now.limiter, hleft]
    exact (onlyOrders_foldl_observe _ heard).keeps.limiter

/-- What finishing a call does to its budget, which is handed back once, stopped or not. -/
def Settles (s : Session) (p : Pending) (delivery : Http.Delivery) (s' : Session) : Prop :=
  if delivery.neverLeft then s.limiter.Returned p.reservation s'.limiter
  else s.limiter.Spent s'.limiter

theorem settles_of_attempt {p : Pending} {delivery : Http.Delivery}
    {result : Checked (Except GatewayError Answer)}
    (hissued : p.reservation.limiter = s.limiter.id)
    (h : s.attemptFinish now p delivery = (s', result)) : s.Settles p delivery s' := by
  rw [Settles, limiter_attemptFinish h]
  split
  · exact Limiter.returned_release hissued
  · exact Limiter.spent_record hissued

theorem id_attemptFinish {p : Pending} {delivery : Http.Delivery}
    {result : Checked (Except GatewayError Answer)}
    (h : s.attemptFinish now p delivery = (s', result)) : s'.limiter.id = s.limiter.id := by
  rw [limiter_attemptFinish h]
  split
  · exact Limiter.id_release _ _
  · exact Limiter.id_record _ _

/-! ## Calls that are refused at once -/

/-- The call is refused whenever it is started, and nothing happens. -/
def Refuses (s : Session) (call : Call) (error : GatewayError) : Prop :=
  ∀ now expired, s.start now expired call = .ok (s, .error error)

theorem refuses_of_plan {call : Call} {error : GatewayError}
    (h : ∀ now, s.plan now call = .ok (.error error)) : s.Refuses call error := by
  intro now expired
  rw [start, h now.record]
  rfl

theorem symbolOf_unknown {pair : String} (h : s.symbols.current.ofPair? pair = none) :
    s.symbols.current.symbolOf pair = .error (.unknownPair pair) := by
  rw [SymbolMap.symbolOf, h]

/-- Calls about a pair that is not known. -/
theorem refuses_unknownPair {pair : String} (h : s.symbols.current.ofPair? pair = none) :
    s.Refuses (.ticker pair) (.unknownPair pair) ∧
      s.Refuses (.bookTicker pair) (.unknownPair pair) ∧
      s.Refuses (.trades pair) (.unknownPair pair) := by
  refine ⟨refuses_of_plan fun _ => ?_, refuses_of_plan fun _ => ?_, refuses_of_plan fun _ => ?_⟩ <;>
    rw [plan, withSymbol, symbolOf_unknown h] <;> rfl

/-- Rounding leaves the pair of an order alone. -/
theorem pair_quantize {order rounded : OrderRequest} (h : s.quantize order = .ok rounded) :
    rounded.pair = order.pair :=
  (quantize_eq_ok h).2.1

/-- Orders that something is wrong with. -/
theorem refuses_invalid {order rounded : OrderRequest} {reason : InvalidOrder}
    (hq : s.quantize order = .ok rounded) (h : s.checkOrder rounded = .ok (.error reason))
    (nonce : String) : s.Refuses (.place order nonce) (.invalidOrder reason) := by
  refine refuses_of_plan fun now => ?_
  rw [plan, planOrder, hq]
  simp only [bind, Except.bind, h]
  rfl

/-- Orders whose pair or client id has something wrong with it. -/
theorem refuses_names {order rounded : OrderRequest} {error : GatewayError} {nonce : String}
    (hq : s.quantize order = .ok rounded) (hc : s.checkOrder rounded = .ok (.ok ()))
    (h : s.orderNames rounded nonce = .error error) : s.Refuses (.place order nonce) error := by
  refine refuses_of_plan fun now => ?_
  rw [plan, planOrder, hq]
  simp only [bind, Except.bind, hc, h]
  rfl

theorem refuses_unknownOrderPair {order rounded : OrderRequest}
    (hq : s.quantize order = .ok rounded) (hc : s.checkOrder rounded = .ok (.ok ()))
    (h : s.symbols.current.ofPair? order.pair = none) (nonce : String) :
    s.Refuses (.place order nonce) (.unknownPair order.pair) := by
  refine refuses_names hq hc ?_
  rw [orderNames, pair_quantize hq, symbolOf_unknown h]
  rfl

theorem refuses_untradable {order rounded : OrderRequest} {l : Listing}
    (hq : s.quantize order = .ok rounded) (hc : s.checkOrder rounded = .ok (.ok ()))
    (hl : s.symbols.current.ofPair? order.pair = some l) (h : s.isTradable order.pair = false)
    (nonce : String) :
    s.Refuses (.place order nonce) (.invalidOrder (.notOpenForTrading order.pair)) := by
  refine refuses_names hq hc ?_
  rw [orderNames, pair_quantize hq, SymbolMap.symbolOf, hl]
  simp [bind, Except.bind, h]

end Session

/-! ## Courses -/

/-- What is counted in a course. -/
structure Tally where
  /-- Requests that were handed to the transport. -/
  handed : Nat
  /-- Requests among them that did not leave. -/
  returned : Nat
  /-- Calls that were stopped while they held budget. -/
  stranded : Nat
  deriving DecidableEq, Repr

namespace Tally

def zero : Tally := ⟨0, 0, 0⟩

/-- What is counted after a move. -/
def note (t : Tally) (d : Dialogue) : Move → Checked Reaction → Tally
  | .start _ _ _, .ok (.sent _) => { t with handed := t.handed + 1 }
  | .start now _ call, .error _ =>
    if d.session.holds now call then { t with stranded := t.stranded + 1 } else t
  | .finish number _ delivery, _ =>
    if (d.waiting[number]?).isSome && delivery.neverLeft then
      { t with returned := t.returned + 1 }
    else t
  | _, _ => t

end Tally

namespace Dialogue

variable {d d' : Dialogue} {t : Tally}

/-- Each reservation is released, recorded, on its way or stranded, and each request is recorded,
did not leave or is on its way. -/
structure Settled (d : Dialogue) (t : Tally) : Prop where
  issued : ∀ p ∈ d.waiting, p.reservation.limiter = d.session.limiter.id
  admitted : d.session.limiter.stats.admitted = d.session.limiter.stats.released +
    d.session.limiter.stats.recorded + d.waiting.length + t.stranded
  handed : t.handed = d.session.limiter.stats.recorded + t.returned + d.waiting.length

theorem Settled.opening {s : Session} (hs : s.Fresh) : (opening s).Settled .zero := by
  have hstats : s.limiter.stats = ⟨0, 0, 0, 0⟩ := by
    obtain ⟨_, _, _, table, _, rfl⟩ := hs.eq
    rfl
  refine ⟨(fun p hp => by cases hp), ?_, ?_⟩ <;> simp only [Dialogue.opening, hstats] <;> rfl

/-- What leaves statistics alone keeps the balance. -/
theorem Settled.of_same (h : d.Settled t) {session : Session}
    (hid : session.limiter.id = d.session.limiter.id)
    (hstats : session.limiter.stats = d.session.limiter.stats) :
    Settled ⟨session, d.waiting⟩ t := by
  refine ⟨fun p hp => (h.issued p hp).trans hid.symm, ?_, ?_⟩ <;> simp only [hstats]
  · exact h.admitted
  · exact h.handed

/-- A call that is refused, or given up before sending, leaves nothing open. -/
theorem Settled.of_refused (h : d.Settled t) {now : Readings} {expired : Bool} {call : Call}
    {session : Session} {error : GatewayError}
    (half : d.session.attemptStart now expired call = (session, .ok (.error error))) :
    Settled ⟨session, d.waiting⟩ t := by
  have hid := Session.id_attemptStart half
  have hadmitted := h.admitted
  have hhanded := h.handed
  refine ⟨fun p hp => (h.issued p hp).trans hid.symm, ?_, ?_⟩ <;>
    cases Session.accounts_of_attempt half with
    | refused error planned unchanged =>
      rw [unchanged]
      assumption
    | throttled refusal stats =>
      rcases stats with stats | stats <;> simp only [stats] <;> assumption
    | late errand passed planned undone =>
      simp only [undone.stats]
      omega
    | untracked errand order error intime planned submitted tracked undone =>
      simp only [undone.stats]
      omega

theorem Settled.of_sent (h : d.Settled t) {now : Readings} {expired : Bool} {call : Call}
    {session : Session} {p : Pending}
    (half : d.session.attemptStart now expired call = (session, .ok (.ok p))) :
    Settled ⟨session, d.waiting ++ [p]⟩ { t with handed := t.handed + 1 } := by
  have hid := Session.id_attemptStart half
  have hadmitted := h.admitted
  have hhanded := h.handed
  cases Session.accounts_of_attempt half with
  | sent p intime reserved stats =>
    have hissued := (Limiter.admitted_of_reserve reserved).1
    refine ⟨?_, ?_, ?_⟩
    · intro p' hp'
      rw [List.mem_append, List.mem_singleton] at hp'
      rcases hp' with hp' | rfl
      · exact (h.issued p' hp').trans hid.symm
      · exact hissued.trans hid.symm
    · simp only [stats, List.length_append, List.length_singleton]
      omega
    · simp only [stats, List.length_append, List.length_singleton]
      omega

/-- A call that is stopped leaves its budget open, if it holds any. -/
theorem Settled.of_unsent (h : d.Settled t) {now : Readings} {expired : Bool} {call : Call}
    {session : Session} {fault : Fault}
    (half : d.session.attemptStart now expired call = (session, .error fault)) :
    Settled ⟨session, d.waiting⟩
      (if d.session.holds now call then { t with stranded := t.stranded + 1 } else t) := by
  have hid := Session.id_attemptStart half
  cases Session.accounts_of_attempt half with
  | unplanned fault planned unchanged =>
    have hnothing : d.session.holds now call = false := by
      rw [Session.holds, planned]
    rw [hnothing, unchanged]
    exact h
  | unreserved errand fault planned stopped stats =>
    have hnothing : d.session.holds now call = false := by
      simp only [Session.holds, planned, stopped]
    rw [hnothing]
    exact h.of_same hid stats
  | stranded errand reservation planned signs outside reserved stats =>
    have hholds : d.session.holds now call = true :=
      Session.holds_iff.mpr ⟨errand, _, reservation, planned, reserved⟩
    have hadmitted := h.admitted
    have hhanded := h.handed
    rw [if_pos hholds]
    refine ⟨fun p hp => (h.issued p hp).trans hid.symm, ?_, ?_⟩ <;> simp only [stats] <;> omega

theorem Settled.of_finished (h : d.Settled t) {number : Nat} {p : Pending}
    (hp : d.waiting[number]? = some p) {now : Readings} {delivery : Http.Delivery}
    {session : Session} {result : Checked (Except GatewayError Answer)}
    (half : d.session.attemptFinish now p delivery = (session, result)) :
    Settled ⟨session, d.waiting.eraseIdx number⟩
      (if delivery.neverLeft then { t with returned := t.returned + 1 } else t) := by
  have hid := Session.id_attemptFinish half
  have hsettles := Session.settles_of_attempt (h.issued p (List.mem_of_getElem? hp)) half
  obtain ⟨hlt, _⟩ := List.getElem?_eq_some_iff.mp hp
  have hlength := List.length_eraseIdx_of_lt hlt
  have hadmitted := h.admitted
  have hhanded := h.handed
  unfold Session.Settles at hsettles
  refine ⟨fun p' hp' => (h.issued p' (List.mem_of_mem_eraseIdx hp')).trans hid.symm, ?_, ?_⟩ <;>
    cases hleft : delivery.neverLeft <;>
    simp only [hleft, Bool.false_eq_true, if_false, if_true] at hsettles ⊢ <;>
    simp only [hsettles.stats, hlength] <;>
    omega

/-- A move keeps the balance. -/
theorem Settled.of_attempt (h : d.Settled t) {move : Move} {reaction : Checked Reaction}
    (hmove : d.attempt move = (d', reaction)) : d'.Settled (t.note d move reaction) := by
  cases attempted_of_attempt hmove with
  | sent half => exact h.of_sent half
  | refused half => exact h.of_refused half
  | unsent half => exact h.of_unsent half
  | finished waits half =>
    simp only [Tally.note, waits, Option.isSome_some, Bool.true_and]
    exact h.of_finished waits half
  | nothing gone =>
    simp only [Tally.note, gone, Option.isSome_none, Bool.false_and, Bool.false_eq_true, if_false]
    exact h
  | looked looks rolled =>
    rcases looks with ⟨tier, rfl⟩ | rfl <;> exact h.of_same rfl rfl
  | heard frame => exact h
  | subscribed pairs id => exact h
  | placed now => exact h.of_same rfl rfl
  | tracked o => exact h.of_same rfl rfl
  | updated u => exact h.of_same rfl rfl
  | acknowledged clientId => exact h.of_same rfl rfl

/-- **Every call settles its budget once, unless it is stopped in being signed.**  After every course
of a session, whatever became of its requests and whatever was stopped:

* each reservation is released, recorded, on its way or stranded, and each request is recorded, did
  not leave or is on its way;
* a call is stranded exactly if its request is admitted and has to be signed, and the exchange's
  time lies outside the calendar;
* a call that is started gives back all that it reserved exactly if it is late or its order is not
  tracked, and a call that is finished exactly if its request did not leave, even if it is stopped;
* and calls that are refused before anything is reserved do nothing. -/
theorem settled_of_course {s : Session} (hs : s.Fresh) {moves : List Move}
    (h : course Tally.note (opening s) .zero moves = (d, t)) :
    (d.session.limiter.stats.admitted = d.session.limiter.stats.released +
        d.session.limiter.stats.recorded + d.waiting.length + t.stranded ∧
      t.handed = d.session.limiter.stats.recorded + t.returned + d.waiting.length) ∧
    (d.waiting = [] →
      (d.session.limiter.stats.admitted =
          d.session.limiter.stats.released + d.session.limiter.stats.recorded ↔ t.stranded = 0) ∧
        d.session.limiter.stats.recorded = t.handed - t.returned) ∧
    (∀ now expired call fault,
      d.session.start now expired call = .error fault ∧ d.session.holds now call = true ↔
        fault = .dateOverflow ∧ d.session.OffCalendar now.signature ∧
        ∃ e limiter reservation, d.session.plan now.record call = .ok (.ok e) ∧
          d.session.Signs e ∧ d.session.limiter.reserve e.endpoint.tier now.limiter =
            .ok (limiter, .ok reservation)) ∧
    (∀ now expired call s' result, d.session.attemptStart now expired call = (s', result) →
      d.session.Accounts now expired call s' result) ∧
    (∀ p ∈ d.waiting, ∀ now delivery s' result,
      d.session.attemptFinish now p delivery = (s', result) → d.session.Settles p delivery s') ∧
    (∀ pair, d.session.symbols.current.ofPair? pair = none →
      d.session.Refuses (.ticker pair) (.unknownPair pair) ∧
      d.session.Refuses (.bookTicker pair) (.unknownPair pair) ∧
      d.session.Refuses (.trades pair) (.unknownPair pair)) ∧
    ∀ order rounded nonce, d.session.quantize order = .ok rounded →
      (∀ reason, d.session.checkOrder rounded = .ok (.error reason) →
        d.session.Refuses (.place order nonce) (.invalidOrder reason)) ∧
      (d.session.checkOrder rounded = .ok (.ok ()) →
        match d.session.symbols.current.ofPair? order.pair with
        | none => d.session.Refuses (.place order nonce) (.unknownPair order.pair)
        | some _ => d.session.isTradable order.pair = false →
          d.session.Refuses (.place order nonce)
            (.invalidOrder (.notOpenForTrading order.pair))) := by
  have hsettled : d.Settled t :=
    course_invariant (fun _ _ _ _ _ hd hmove => hd.of_attempt hmove) (Settled.opening hs) h
  have hadmitted := hsettled.admitted
  have hhanded := hsettled.handed
  refine ⟨⟨hadmitted, hhanded⟩, ?_, ?_, ?_, ?_, ?_, ?_⟩
  · intro hwaiting
    rw [hwaiting, List.length_nil] at hadmitted hhanded
    constructor <;> omega
  · exact fun now expired call fault => Session.holds_and_stopped_iff
  · exact fun now expired call s' result hstart => Session.accounts_of_attempt hstart
  · exact fun p hp now delivery s' result hfinish =>
      Session.settles_of_attempt (hsettled.issued p hp) hfinish
  · exact fun pair hpair => Session.refuses_unknownPair hpair
  · intro order rounded nonce hq
    refine ⟨fun reason hc => Session.refuses_invalid hq hc nonce, fun hc => ?_⟩
    split
    · rename_i hpair
      exact Session.refuses_unknownOrderPair hq hc hpair nonce
    · rename_i l hl
      exact fun htradable => Session.refuses_untradable hq hc hl htradable nonce

/-- Three requests, of which one does not leave, one is given up and one fails, a call that is late
and one that is refused. -/
def mixedCalls : List Move :=
  [.start (.still ⟨0, false⟩) false .ping,
    .finish 0 (.still ⟨0, false⟩) (.failed (.connect "refused")),
    .start (.still ⟨0, false⟩) false .ping, .start (.still ⟨0, false⟩) false .serverTime,
    .start (.still ⟨0, false⟩) true .exchangeInfo,
    .start (.still ⟨0, false⟩) false (.ticker "BTC-USDT"),
    .finish 1 (.still ⟨0, false⟩) .timedOut, .finish 0 (.still ⟨0, false⟩) (.reply ⟨503, ""⟩)]

theorem settled_mixedCalls : ∃ s d t, Session.create .default ⟨"key", "secret", none⟩ = .ok s ∧
    course Tally.note (opening s) .zero mixedCalls = (d, t) ∧ d.waiting = [] ∧ t = ⟨3, 1, 0⟩ ∧
    d.session.limiter.stats = ⟨4, 0, 2, 2⟩ ∧
    d.session.limiter.stats.admitted =
      d.session.limiter.stats.released + d.session.limiter.stats.recorded := by
  obtain ⟨s, hs⟩ : ∃ s, Session.create .default ⟨"key", "secret", none⟩ = .ok s := ⟨_, rfl⟩
  obtain ⟨d, t, hcourse, hwaiting, ht, hstats⟩ : ∃ d t,
      course Tally.note (opening s) .zero mixedCalls = (d, t) ∧ d.waiting = [] ∧
        t = ⟨3, 1, 0⟩ ∧ d.session.limiter.stats = ⟨4, 0, 2, 2⟩ := by
    cases hs
    exact ⟨_, _, rfl, rfl, rfl, rfl⟩
  have hbalance := ((settled_of_course (.created hs) hcourse).2.1 hwaiting).1
  exact ⟨s, d, t, hs, hcourse, hwaiting, ht, hstats, hbalance.mpr (by rw [ht])⟩

/-- Requests are signed. -/
def signingConfig : Config := { Config.default with signing := .hmacSha256 }

/-- The exchange's clock stands a millisecond before the end of the calendar. -/
def lastMoment : Http.Delivery :=
  .reply ⟨200, "\x7b\"serverTime\":8210266876799999\x7d"⟩

/-- The exchange's time is asked for, and a second after that open orders are. -/
def overtaken : List Move :=
  [.start (.still ⟨0, false⟩) false .syncTime, .finish 0 (.still ⟨0, false⟩) lastMoment,
    .start (.still ⟨1000000000, false⟩) false .openOrders]

/-- The exchange's time has left the calendar when the request for open orders is signed, and its
budget is neither released nor recorded. -/
theorem unsettled_overtaken : ∃ s d t,
    Session.create signingConfig ⟨"key", "secret", none⟩ = .ok s ∧
    course Tally.note (opening s) .zero overtaken = (d, t) ∧ d.waiting = [] ∧
    d.session.limiter.stats = ⟨2, 0, 0, 1⟩ ∧
    ¬ d.session.limiter.stats.admitted =
      d.session.limiter.stats.released + d.session.limiter.stats.recorded := by
  have hcourse : (do
      let s ← (Session.create signingConfig ⟨"key", "secret", none⟩).toOption
      let c := course Tally.note (opening s) .zero overtaken
      return (c.1.waiting.length, c.1.session.limiter.stats)) = some (0, ⟨2, 0, 0, 1⟩) := by
    decide +kernel
  simp only [Option.bind_eq_bind, Option.bind_eq_some_iff, toOption_eq_some_iff, Option.pure_def,
    Option.some.injEq, Prod.mk.injEq, List.length_eq_zero_iff] at hcourse
  obtain ⟨s, hs, hwaiting, hstats⟩ := hcourse
  refine ⟨s, (course Tally.note (opening s) .zero overtaken).1, _, hs, rfl, hwaiting, hstats, ?_⟩
  rw [hstats]
  decide

end Dialogue

end SpotGateway
