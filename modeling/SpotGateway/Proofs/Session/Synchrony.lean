import SpotGateway.Proofs.Http.Blank
import SpotGateway.Proofs.Order.Timeless
import SpotGateway.Proofs.Session.Dialogue

/-!
# What the exchange's clock has a part in

Sessions that are told different times by the exchange take the same course but for the times they
write down: the same calls are admitted and refused, the same budget is used up, the same places are
given, and orders are in the same states.

* `Errand.timeless`, `Answer.timeless`, `Pending.timeless`, `Reaction.timeless`,
  `Session.timeless`, `Dialogue.timeless` — times that come from the exchange's clock blotted out;
* `Session.timeless_of_start`, `Session.timeless_of_finish`, `Session.timeless_of_told` — the two
  halves of a call;
* `Dialogue.Parallel` — courses of the same moves, but for the times that the exchange tells;
* `Dialogue.timeless_of_run` — where they lead.
-/

set_option autoImplicit false

namespace SpotGateway

/-! ## Times blotted out -/

def Errand.timeless : Errand → Errand
  | .place order symbol => .place order.timeless symbol
  | e => e

def Answer.timeless : Answer → Answer
  | .time _ => .time .epoch
  | .clock _ => .clock .unshifted
  | .order o => .order o.timeless
  | .report r => .report r.timeless
  | .reports rs => .reports (rs.map OrderReport.timeless)
  | a => a

/-- The headers that time has a part in. -/
def Authenticator.timedHeaders : List String := [timestampHeader, signatureHeader]

def Pending.timeless (p : Pending) : Pending :=
  { p with errand := p.errand.timeless, request := p.request.blank Authenticator.timedHeaders }

def Reaction.timeless : Reaction → Reaction
  | .sent p => .sent p.timeless
  | .answered result => .answered (result.map Answer.timeless)
  | .acknowledged result => .acknowledged (result.map InFlightOrder.timeless)
  | r => r

/-- The session without the times of its orders, as if the exchange's clock were not shifted. -/
def Session.timeless (s : Session) : Session :=
  { s with tracker := s.tracker.timeless, clock := .unshifted }

def Dialogue.timeless (d : Dialogue) : Dialogue :=
  ⟨d.session.timeless, d.waiting.map Pending.timeless⟩

/-! ## Errands -/

namespace Errand

theorem endpoint_timeless (e : Errand) : e.timeless.endpoint = e.endpoint := by
  cases e <;> rfl

theorem request_timeless (e : Errand) : e.timeless.request = e.request := by
  cases e <;> rfl

theorem submitted_timeless (e : Errand) :
    e.timeless.submitted = e.submitted.map InFlightOrder.timeless := by
  cases e <;> rfl

theorem timeless_of_submitted {e : Errand} (h : e.submitted = none) : e.timeless = e := by
  cases e with
  | place order symbol => cases h
  | _ => rfl

theorem eq_place_of_submitted {e : Errand} {o : InFlightOrder} (h : e.submitted = some o) :
    ∃ symbol, e = .place o symbol := by
  cases e with
  | place order symbol =>
    cases h
    exact ⟨symbol, rfl⟩
  | _ => cases h

/-- Errands that are the same without times are the same, or submit orders that are the same without
times. -/
theorem eq_or_place_of_timeless {e₁ e₂ : Errand} (h : e₁.timeless = e₂.timeless) :
    e₁.submitted = none ∧ e₁ = e₂ ∨ ∃ o₁ o₂ symbol, e₁ = .place o₁ symbol ∧
      e₂ = .place o₂ symbol ∧ o₁.timeless = o₂.timeless := by
  have hsubmitted := congrArg submitted h
  rw [submitted_timeless, submitted_timeless] at hsubmitted
  cases h₁ : e₁.submitted with
  | none =>
    rw [h₁, Option.map_none, eq_comm, Option.map_eq_none_iff] at hsubmitted
    rw [timeless_of_submitted h₁, timeless_of_submitted hsubmitted] at h
    exact Or.inl ⟨rfl, h⟩
  | some o₁ =>
    rw [h₁, Option.map_some, eq_comm, Option.map_eq_some_iff] at hsubmitted
    obtain ⟨o₂, h₂, ho⟩ := hsubmitted
    obtain ⟨symbol₁, rfl⟩ := eq_place_of_submitted h₁
    obtain ⟨symbol₂, rfl⟩ := eq_place_of_submitted h₂
    cases congrArg (fun e => match e with | .place _ symbol => symbol | _ => "") h
    exact Or.inr ⟨o₁, o₂, symbol₁, rfl, rfl, ho.symm⟩

end Errand

namespace Session

variable {s₁ s₂ : Session} {now : Timestamp}

/-- Sessions that are the same without times differ in their trackers and clocks alone. -/
theorem exists_of_timeless (h : s₁.timeless = s₂.timeless) : ∃ tracker clock,
    s₁.tracker.timeless = tracker.timeless ∧ s₂ = { s₁ with tracker, clock } := by
  obtain ⟨config, authenticator, signsServerTime, limiter, symbols, rules, tracker, clock⟩ := s₂
  refine ⟨tracker, clock, congrArg Session.tracker h, ?_⟩
  cases s₁
  simp only [timeless, mk.injEq] at h
  simp [h]

/-- The same session without times, and the same result but for the times in it. -/
def Timeless {α β : Type} (view : α → β) (x y : Session × α) : Prop :=
  x.1.timeless = y.1.timeless ∧ view x.2 = view y.2

/-! ## Starting calls -/

/-- Which request is planned does not depend on the exchange's time. -/
theorem timeless_of_plan (h : s₁.timeless = s₂.timeless) (now : Timestamp) (call : Call) :
    Compatible (fun p₁ p₂ => Except.map Errand.timeless p₁ = Except.map Errand.timeless p₂)
      (s₁.plan now call) (s₂.plan now call) := by
  obtain ⟨tracker, clock, _, rfl⟩ := exists_of_timeless h
  cases call with
  | place order nonce =>
    refine (Compatible.refl (fun _ => rfl) (s₁.quantize order)).bind fun rounded _ he => ?_
    subst he
    refine (Compatible.refl (fun _ => rfl) (s₁.checkOrder rounded)).bind fun checked _ he => ?_
    subst he
    cases checked with
    | error reason => exact .ok rfl
    | ok u =>
      have hnames : orderNames { s₁ with tracker, clock } rounded nonce =
        s₁.orderNames rounded nonce := rfl
      simp only [hnames]
      cases s₁.orderNames rounded nonce with
      | error e => exact .ok rfl
      | ok names =>
        refine Compatible.bind (R := fun _ _ => True) (fun _ _ _ _ => trivial)
          fun createdAt createdAt' _ => .ok rfl
  | _ => exact .ok rfl

theorem timeless_of_decorate (a : Authenticator) (clock₁ clock₂ : Checked Timestamp)
    (r : Http.Request) :
    Compatible (fun r₁ r₂ => r₁.blank Authenticator.timedHeaders =
      r₂.blank Authenticator.timedHeaders) (a.decorate clock₁ r) (a.decorate clock₂ r) := by
  unfold Authenticator.decorate
  cases a.scheme with
  | bearerToken => exact .ok rfl
  | hmacSha256 =>
    refine Compatible.bind (R := fun _ _ => True) (fun _ _ _ _ => trivial) fun t₁ t₂ _ => .ok ?_
    have htimestamp : Authenticator.timestampHeader ∈ Authenticator.timedHeaders := by decide
    have hsignature : Authenticator.signatureHeader ∈ Authenticator.timedHeaders := by decide
    simp only [Http.Request.blank_setHeader htimestamp, Http.Request.blank_setHeader hsignature]

theorem timeless_of_requestOf (h : s₁.timeless = s₂.timeless) (now : Timestamp) {e₁ e₂ : Errand}
    (he : e₁.timeless = e₂.timeless) :
    Compatible (fun r₁ r₂ => r₁.blank Authenticator.timedHeaders =
      r₂.blank Authenticator.timedHeaders) (s₁.requestOf now e₁) (s₂.requestOf now e₂) := by
  obtain ⟨tracker, clock, _, rfl⟩ := exists_of_timeless h
  have hendpoint : e₂.endpoint = e₁.endpoint := by
    rw [← e₂.endpoint_timeless, ← he, e₁.endpoint_timeless]
  have hrequest : e₂.request = e₁.request := by
    rw [← e₂.request_timeless, ← he, e₁.request_timeless]
  unfold requestOf
  rw [hendpoint, hrequest]
  cases e₁.endpoint.needsAuthentication with
  | false => exact .ok rfl
  | true => exact timeless_of_decorate _ _ _ _

theorem timeless_of_track (h : s₁.timeless = s₂.timeless) {o₁ o₂ : InFlightOrder}
    (ho : o₁.timeless = o₂.timeless) : Timeless id (s₁.track o₁) (s₂.track o₂) := by
  obtain ⟨tracker, clock, htracker, rfl⟩ := exists_of_timeless h
  have htrack := s₁.tracker.timeless_track o₁
  rw [htracker, ho, tracker.timeless_track o₂, Prod.mk.injEq] at htrack
  exact ⟨congrArg (fun t => { s₁ with tracker := t, clock := .unshifted }) htrack.1.symm,
    htrack.2.symm⟩

theorem timeless_of_trackSubmitted (h : s₁.timeless = s₂.timeless) {e₁ e₂ : Errand}
    (he : e₁.timeless = e₂.timeless) :
    Timeless id (s₁.trackSubmitted e₁) (s₂.trackSubmitted e₂) := by
  rcases Errand.eq_or_place_of_timeless he with ⟨hnone, rfl⟩ | ⟨o₁, o₂, symbol, rfl, rfl, ho⟩
  · simp only [trackSubmitted, hnone]
    exact ⟨h, rfl⟩
  · exact timeless_of_track h ho

theorem timeless_nextSequence (h : s₁.timeless = s₂.timeless) (now : Timestamp) :
    Timeless id (s₁.nextSequence now) (s₂.nextSequence now) := by
  obtain ⟨tracker, clock, htracker, rfl⟩ := exists_of_timeless h
  have hnext := s₁.tracker.timeless_nextSequence now
  rw [htracker, tracker.timeless_nextSequence now, Prod.mk.injEq] at hnext
  exact ⟨congrArg (fun t => { s₁ with tracker := t, clock := .unshifted }) hnext.1.symm,
    hnext.2.symm⟩

theorem timeless_of_acknowledge (h : s₁.timeless = s₂.timeless) (clientId : String) :
    Timeless (Except.map InFlightOrder.timeless) (s₁.acknowledge clientId)
      (s₂.acknowledge clientId) := by
  obtain ⟨tracker, clock, htracker, rfl⟩ := exists_of_timeless h
  have hacknowledge := s₁.tracker.timeless_acknowledge clientId
  rw [htracker, tracker.timeless_acknowledge clientId, Prod.mk.injEq] at hacknowledge
  exact ⟨congrArg (fun t => { s₁ with tracker := t, clock := .unshifted }) hacknowledge.1.symm,
    hacknowledge.2.symm⟩

theorem timeless_withLimiter (h : s₁.timeless = s₂.timeless) (limiter : Limiter) :
    timeless { s₁ with limiter } = timeless { s₂ with limiter } :=
  congrArg (fun s => { s with limiter }) h

theorem timeless_release (h : s₁.timeless = s₂.timeless) (r : Reservation) :
    (s₁.release r).timeless = (s₂.release r).timeless :=
  congrArg (fun s => s.release r) h

theorem timeless_record (h : s₁.timeless = s₂.timeless) (r : Reservation) :
    (s₁.record r).timeless = (s₂.record r).timeless :=
  congrArg (fun s => s.record r) h

/-- Whether a planned call is admitted and what is sent does not depend on the exchange's time. -/
theorem timeless_of_issue (h : s₁.timeless = s₂.timeless) (now : Readings) (expired : Bool)
    {e₁ e₂ : Errand} (he : e₁.timeless = e₂.timeless) :
    Compatible (Timeless (Except.map Pending.timeless)) (s₁.issue now expired e₁)
      (s₂.issue now expired e₂) := by
  have hlimiter : s₁.timeless.limiter = s₂.timeless.limiter := congrArg limiter h
  have hreserve : s₁.limiter.reserve e₁.endpoint.tier now.limiter =
      s₂.limiter.reserve e₂.endpoint.tier now.limiter := by
    rw [← e₁.endpoint_timeless, he, e₂.endpoint_timeless]
    exact congrArg (fun l : Limiter => l.reserve e₂.endpoint.tier now.limiter) hlimiter
  simp only [issue, hreserve]
  refine (Compatible.refl (fun _ => rfl) _).bind fun reserved _ hreserved => ?_
  subst hreserved
  obtain ⟨limiter, admitted⟩ := reserved
  have h := timeless_withLimiter h limiter
  cases admitted with
  | error refusal => exact .ok ⟨h, rfl⟩
  | ok reservation =>
    refine (timeless_of_requestOf h now.signature he).bind fun r₁ r₂ hrequest => ?_
    cases expired with
    | true => exact .ok ⟨timeless_release h reservation, rfl⟩
    | false =>
      have htracked := timeless_of_trackSubmitted h he
      simp only [Bool.false_eq_true, if_false]
      revert htracked
      cases trackSubmitted { s₁ with limiter } e₁ with
      | mk t₁ tracked₁ =>
        cases trackSubmitted { s₂ with limiter } e₂ with
        | mk t₂ tracked₂ =>
          rintro ⟨hsession, hresult⟩
          cases show tracked₁ = tracked₂ from hresult
          cases tracked₁ with
          | error error => exact .ok ⟨timeless_release hsession reservation, rfl⟩
          | ok u =>
            obtain ⟨hsession, hsequence⟩ := timeless_nextSequence hsession now.sequencer
            refine .ok ⟨hsession, congrArg Except.ok ?_⟩
            simp only [Pending.timeless, he, hrequest,
              show (t₁.nextSequence now.sequencer).2 = (t₂.nextSequence now.sequencer).2
                from hsequence]

/-- Whether a call is sent does not depend on the exchange's time. -/
theorem timeless_of_start (h : s₁.timeless = s₂.timeless) (now : Readings) (expired : Bool)
    (call : Call) :
    Compatible (Timeless (Except.map Pending.timeless)) (s₁.start now expired call)
      (s₂.start now expired call) := by
  refine (timeless_of_plan h now.record call).bind fun p₁ p₂ hplan => ?_
  cases p₁ with
  | error error =>
    cases p₂ with
    | error error' =>
      cases hplan
      exact .ok ⟨h, rfl⟩
    | ok e₂ => cases hplan
  | ok e₁ =>
    cases p₂ with
    | error error' => cases hplan
    | ok e₂ => exact timeless_of_issue h now expired (Except.ok.inj hplan)

/-! ## Finishing calls -/

theorem timeless_of_applyUpdate (h : s₁.timeless = s₂.timeless) {u₁ u₂ : OrderUpdate}
    (hu : u₁.timeless = u₂.timeless) : Timeless id (s₁.applyUpdate u₁) (s₂.applyUpdate u₂) := by
  obtain ⟨tracker, clock, htracker, rfl⟩ := exists_of_timeless h
  have happly := s₁.tracker.timeless_apply u₁
  rw [htracker, hu, tracker.timeless_apply u₂, Prod.mk.injEq] at happly
  exact ⟨congrArg (fun t => { s₁ with tracker := t, clock := .unshifted }) happly.1.symm,
    happly.2.symm⟩

theorem timeless_of_observe (h : s₁.timeless = s₂.timeless) {r₁ r₂ : OrderReport}
    (hr : r₁.timeless = r₂.timeless) : (s₁.observe r₁).timeless = (s₂.observe r₂).timeless := by
  obtain ⟨tracker, clock, htracker, rfl⟩ := exists_of_timeless h
  have hobserve := s₁.tracker.timeless_observe r₁
  rw [htracker, hr, tracker.timeless_observe r₂] at hobserve
  exact congrArg (fun t => { s₁ with tracker := t, clock := .unshifted }) hobserve.symm

theorem timeless_of_takeUpdate (h : s₁.timeless = s₂.timeless) {u₁ u₂ : OrderUpdate}
    (hu : u₁.timeless = u₂.timeless) :
    Timeless (Except.map InFlightOrder.timeless) (s₁.takeUpdate u₁) (s₂.takeUpdate u₂) := by
  have happly := timeless_of_applyUpdate h hu
  have hclient : u₁.timeless.clientId = u₂.timeless.clientId := congrArg OrderUpdate.clientId hu
  unfold takeUpdate
  revert happly
  cases s₁.applyUpdate u₁ with
  | mk t₁ applied₁ =>
    cases s₂.applyUpdate u₂ with
    | mk t₂ applied₂ =>
      rintro ⟨hsession, hresult⟩
      cases show applied₁ = applied₂ from hresult
      cases applied₁ with
      | error error => exact ⟨hsession, rfl⟩
      | ok outcome =>
        have htracker : t₁.tracker.timeless = t₂.tracker.timeless := congrArg tracker hsession
        have hget := congrArg (fun t => t.get? u₁.timeless.clientId) htracker
        simp only [OrderTracker.get?_timeless] at hget
        rw [show u₂.clientId = u₁.timeless.clientId from hclient.symm,
          show u₁.clientId = u₁.timeless.clientId from rfl]
        simp only
        revert hget
        cases t₁.tracker.get? u₁.timeless.clientId <;>
          cases t₂.tracker.get? u₁.timeless.clientId <;> intro hget
        · exact ⟨hsession, rfl⟩
        · cases hget
        · cases hget
        · exact ⟨hsession, congrArg Except.ok (Option.some.inj hget)⟩

theorem timeless_of_takePlaced (h : s₁.timeless = s₂.timeless) (clientId : String)
    (sequence : Nat) (reply : OrderReply) :
    Compatible (Timeless (Except.map InFlightOrder.timeless))
      (s₁.takePlaced now clientId sequence reply) (s₂.takePlaced now clientId sequence reply) := by
  rw [takePlaced_eq, takePlaced_eq]
  cases Status.normalize reply.status with
  | error error => exact .ok ⟨h, rfl⟩
  | ok state =>
    exact Compatible.bind (R := fun _ _ => True) (fun _ _ _ _ => trivial)
      fun t₁ t₂ _ => .ok (timeless_of_takeUpdate h rfl)

theorem timeless_of_takeCancelled (h : s₁.timeless = s₂.timeless) (exchangeId : String)
    (sequence : Nat) (reply : CancelReply) :
    Compatible (Timeless (Except.map id)) (s₁.takeCancelled now exchangeId sequence reply)
      (s₂.takeCancelled now exchangeId sequence reply) := by
  unfold takeCancelled
  cases cancelledState exchangeId reply with
  | error error => exact .ok ⟨h, rfl⟩
  | ok state =>
    exact Compatible.bind (R := fun _ _ => True) (fun _ _ _ _ => trivial)
      fun t₁ t₂ _ => .ok ⟨timeless_of_observe h rfl, rfl⟩

theorem timeless_of_takeStatus (h : s₁.timeless = s₂.timeless) (sequence : Nat)
    (reply : OrderReply) :
    Compatible (Timeless (Except.map OrderReport.timeless)) (s₁.takeStatus now sequence reply)
      (s₂.takeStatus now sequence reply) := by
  obtain ⟨tracker, clock, _, rfl⟩ := exists_of_timeless h
  refine Compatible.bind (R := fun _ _ => True) (fun _ _ _ _ => trivial) fun t₁ t₂ _ => ?_
  cases Status.normalize reply.status with
  | error error => exact .ok ⟨h, rfl⟩
  | ok state => exact .ok ⟨timeless_of_observe h rfl, rfl⟩

/-- What the entries of a list report does not depend on when they were received. -/
theorem timeless_of_reportOf (h : s₁.timeless = s₂.timeless) (t₁ t₂ : Timestamp) (sequence : Nat)
    (state : OrderState) (e : OrderListEntry) :
    Compatible (fun r₁ r₂ => r₁.timeless = r₂.timeless) (s₁.reportOf t₁ sequence state e)
      (s₂.reportOf t₂ sequence state e) := by
  obtain ⟨tracker, clock, _, rfl⟩ := exists_of_timeless h
  refine (Compatible.refl (fun _ => rfl) e.executed).bind fun executed _ he => ?_
  subst he
  exact .ok rfl

theorem timeless_of_takeReports (h : s₁.timeless = s₂.timeless) (t₁ t₂ : Timestamp)
    (sequence : Nat) (entries : List OrderListEntry) :
    Compatible (Timeless (Except.map (List.map OrderReport.timeless)))
      (s₁.takeReports t₁ sequence entries) (s₂.takeReports t₂ sequence entries) := by
  induction entries generalizing s₁ s₂ with
  | nil => exact .ok ⟨h, rfl⟩
  | cons e rest ih =>
    unfold takeReports
    cases Status.normalize e.status with
    | error error => exact .ok ⟨h, rfl⟩
    | ok state =>
      refine (timeless_of_reportOf h t₁ t₂ sequence state e).bind fun r₁ r₂ hr => ?_
      refine (ih (timeless_of_observe h hr)).bind fun x y hxy => .ok ⟨hxy.1, ?_⟩
      have hlater := hxy.2
      obtain ⟨_, later₁⟩ := x
      obtain ⟨_, later₂⟩ := y
      cases later₁ with
      | error error =>
        cases later₂ with
        | error error' =>
          cases hlater
          rfl
        | ok rs => cases hlater
      | ok rs₁ =>
        cases later₂ with
        | error error => cases hlater
        | ok rs₂ =>
          have hlater : rs₁.map OrderReport.timeless = rs₂.map OrderReport.timeless :=
            Except.ok.inj hlater
          simp only [Except.map, List.map_cons, hr, hlater]

theorem timeless_of_taking (h : s₁.timeless = s₂.timeless) {α : Type}
    (result : Except GatewayError α)
    {take₁ take₂ : α → Checked (Session × Except GatewayError Answer)}
    (htake : ∀ a, Compatible (Timeless (Except.map Answer.timeless)) (take₁ a) (take₂ a)) :
    Compatible (Timeless (Except.map Answer.timeless)) (s₁.taking result take₁)
      (s₂.taking result take₂) := by
  cases result with
  | error error => exact .ok ⟨h, rfl⟩
  | ok a => exact htake a

/-- A result that is handed on as an answer. -/
theorem timeless_map {α β : Type} {view : α → β} (make : α → Answer) (remake : β → Answer)
    (hmake : ∀ a, (make a).timeless = remake (view a)) {x y : Session × Except GatewayError α}
    (h : Timeless (Except.map view) x y) :
    Timeless (Except.map Answer.timeless) (x.1, x.2.map make) (y.1, y.2.map make) := by
  obtain ⟨s₁, r₁⟩ := x
  obtain ⟨s₂, r₂⟩ := y
  obtain ⟨hsession, hresult⟩ := h
  refine ⟨hsession, ?_⟩
  have hremake : ∀ r : Except GatewayError α,
      (r.map make).map Answer.timeless = (r.map view).map remake := by
    intro r
    cases r with
    | error error => rfl
    | ok a => exact congrArg Except.ok (hmake a)
  rw [hremake, hremake, show Except.map view r₁ = Except.map view r₂ from hresult]

theorem timeless_of_takeOrderList (h : s₁.timeless = s₂.timeless) (sequence : Nat) (e : Errand)
    (body : String) :
    Compatible (Timeless (Except.map Answer.timeless)) (s₁.takeOrderList now sequence e body)
      (s₂.takeOrderList now sequence e body) := by
  refine timeless_of_taking h _ fun entries => ?_
  refine Compatible.bind (R := fun _ _ => True) (fun _ _ _ _ => trivial) fun t₁ t₂ _ => ?_
  exact (timeless_of_takeReports h t₁ t₂ sequence entries).bind fun x y hxy =>
    .ok (timeless_map .reports .reports (fun _ => rfl) hxy)

/-- The side of an execution does not depend on times. -/
theorem sideOf_of_timeless (h : s₁.timeless = s₂.timeless) (e : TradeEntry) :
    s₁.sideOf e = s₂.sideOf e := by
  have hside : ∀ s : Session, (s.tracker.timeless.getByExchangeId? e.exchangeId).map
      InFlightOrder.side = (s.tracker.getByExchangeId? e.exchangeId).map InFlightOrder.side := by
    intro s
    rw [OrderTracker.getByExchangeId?_timeless, Option.map_map]
    rfl
  have htracker : s₁.tracker.timeless = s₂.tracker.timeless := congrArg tracker h
  unfold sideOf
  rw [← hside s₁, htracker, hside s₂]

/-- What a body does does not depend on the exchange's time. -/
theorem timeless_of_takeBody (h : s₁.timeless = s₂.timeless) (sequence : Nat) {e₁ e₂ : Errand}
    (he : e₁.timeless = e₂.timeless) (body : String) :
    Compatible (Timeless (Except.map Answer.timeless)) (s₁.takeBody now sequence e₁ body)
      (s₂.takeBody now sequence e₂ body) := by
  rcases Errand.eq_or_place_of_timeless he with ⟨hnone, rfl⟩ | ⟨o₁, o₂, symbol, rfl, rfl, ho⟩
  · cases e₁ with
    | place order symbol => cases hnone
    | cancel exchangeId =>
      exact timeless_of_taking h _ fun reply => (timeless_of_takeCancelled h _ _ reply).bind
        fun x y hxy => .ok (timeless_map .state .state (fun _ => rfl) hxy)
    | status exchangeId =>
      exact timeless_of_taking h _ fun reply => (timeless_of_takeStatus h _ reply).bind
        fun x y hxy => .ok (timeless_map .report .report (fun _ => rfl) hxy)
    | openOrders => exact timeless_of_takeOrderList h sequence _ body
    | allOrders => exact timeless_of_takeOrderList h sequence _ body
    | trades pair symbol =>
      have hfills := funext (fillsOf_congr (sideOf_of_timeless h) pair)
      simp only [takeBody, answer, hfills]
      exact .ok ⟨h, rfl⟩
    | syncTime sentAt =>
      refine timeless_of_taking h _ fun server => .ok ⟨?_, rfl⟩
      exact congrArg (fun s => { s with clock := .unshifted }) h
    | exchangeInfo =>
      obtain ⟨tracker, clock, htracker, rfl⟩ := exists_of_timeless h
      refine timeless_of_taking h _ fun info => ?_
      simp only [takeExchangeInfo]
      cases s₁.symbols.refresh (info.symbols.map SymbolInfo.entry) with
      | mk symbols refreshed =>
        cases refreshed with
        | error error => exact .ok ⟨h, rfl⟩
        | ok u =>
          refine .ok ⟨?_, rfl⟩
          exact congrArg (fun s => { s with symbols, rules := rulesOf info.symbols }) h
    | _ =>
      obtain ⟨tracker, clock, _, rfl⟩ := exists_of_timeless h
      exact .ok ⟨h, rfl⟩
  · have hclient : o₁.timeless.clientId = o₂.timeless.clientId :=
      congrArg InFlightOrder.clientId ho
    have hread : readBody (.place o₁ symbol) OrderReply.decoder body =
      readBody (.place o₂ symbol) OrderReply.decoder body := rfl
    simp only [takeBody, hread, show o₁.clientId = o₂.clientId from hclient]
    exact timeless_of_taking h _ fun reply => (timeless_of_takePlaced h _ _ reply).bind
      fun x y hxy => .ok (timeless_map .order .order (fun _ => rfl) hxy)

theorem timeless_of_afterFailure {now : Readings} (h : s₁.timeless = s₂.timeless)
    {e₁ e₂ : Errand} (he : e₁.timeless = e₂.timeless) (error : GatewayError) :
    Compatible (fun s s' => s.timeless = s'.timeless) (s₁.afterFailure now e₁ error)
      (s₂.afterFailure now e₂ error) := by
  rcases Errand.eq_or_place_of_timeless he with ⟨hnone, rfl⟩ | ⟨o₁, o₂, symbol, rfl, rfl, ho⟩
  · simp only [afterFailure, hnone]
    exact .ok h
  · have hclient : o₁.timeless.clientId = o₂.timeless.clientId :=
      congrArg InFlightOrder.clientId ho
    simp only [afterFailure, Errand.submitted, show o₁.clientId = o₂.clientId from hclient]
    cases error.mayHaveBeenAccepted with
    | true => exact .ok h
    | false =>
      refine Compatible.bind (R := fun _ _ => True) (fun _ _ _ _ => trivial) fun t₁ t₂ _ => .ok ?_
      obtain ⟨hsession, hsequence⟩ := timeless_nextSequence h now.sequencer
      refine (timeless_of_applyUpdate hsession ?_).1
      simp only [OrderUpdate.timeless, OrderUpdate.mk.injEq, true_and, and_true]
      exact hsequence

/-- What a delivery leads to before a body is taken in. -/
theorem timeless_of_settle (h : s₁.timeless = s₂.timeless) (now : Timestamp) (r : Reservation)
    (delivery : Http.Delivery) :
    Timeless id (s₁.settle now r delivery) (s₂.settle now r delivery) := by
  cases delivery with
  | timedOut => exact ⟨timeless_record h r, rfl⟩
  | failed error =>
    cases error with
    | connect reason => exact ⟨timeless_release h r, rfl⟩
    | request reason => exact ⟨timeless_record h r, rfl⟩
    | body reason => exact ⟨timeless_record h r, rfl⟩
  | reply response => exact ⟨timeless_record h r, rfl⟩

/-- What a delivery leads to does not depend on the exchange's time. -/
theorem timeless_of_finish (h : s₁.timeless = s₂.timeless) (now : Readings) {p₁ p₂ : Pending}
    (hp : p₁.timeless = p₂.timeless) (delivery : Http.Delivery) :
    Compatible (Timeless (Except.map Answer.timeless)) (s₁.finish now p₁ delivery)
      (s₂.finish now p₂ delivery) := by
  have herrand : p₁.errand.timeless = p₂.errand.timeless := congrArg Pending.errand hp
  have hreservation : p₁.timeless.reservation = p₂.timeless.reservation :=
    congrArg Pending.reservation hp
  have hsequence : p₁.timeless.sequence = p₂.timeless.sequence := congrArg Pending.sequence hp
  unfold finish
  rw [show p₂.reservation = p₁.reservation from hreservation.symm,
    show p₂.sequence = p₁.sequence from hsequence.symm]
  have hsettled := timeless_of_settle h now.limiter p₁.reservation delivery
  revert hsettled
  cases s₁.settle now.limiter p₁.reservation delivery with
  | mk t₁ settled₁ =>
    cases s₂.settle now.limiter p₁.reservation delivery with
    | mk t₂ settled₂ =>
      rintro ⟨hsession, hresult⟩
      cases show settled₁ = settled₂ from hresult
      cases settled₁ with
      | error error =>
        exact (timeless_of_afterFailure hsession herrand error).bind fun _ _ hafter =>
          .ok ⟨hafter, rfl⟩
      | ok body => exact timeless_of_takeBody hsession _ herrand body

/-- The reply is a success and tells the exchange's time. -/
def Tells (e : Errand) (response : Http.Response) (t : Timestamp) : Prop :=
  response.isSuccess = true ∧ serverTimeOf e response.body = .ok t

/-- Which time the exchange tells has no part in what a reply that tells it leads to. -/
theorem timeless_of_told (h : s₁.timeless = s₂.timeless) (now : Readings) {p₁ p₂ : Pending}
    (hp : p₁.timeless = p₂.timeless) (hasks : p₁.errand.endpoint = .serverTime)
    {response₁ response₂ : Http.Response} {t₁ t₂ : Timestamp} (h₁ : Tells p₁.errand response₁ t₁)
    (h₂ : Tells p₁.errand response₂ t₂) :
    Compatible (Timeless (Except.map Answer.timeless)) (s₁.finish now p₁ (.reply response₁))
      (s₂.finish now p₂ (.reply response₂)) := by
  have herrand : p₁.errand = p₂.errand := by
    have he : p₁.errand.timeless = p₂.errand.timeless := congrArg Pending.errand hp
    rcases Errand.eq_or_place_of_timeless he with ⟨_, he⟩ | ⟨o₁, o₂, symbol, he, _⟩
    · exact he
    · rw [he] at hasks
      cases hasks
  have hreservation : p₁.timeless.reservation = p₂.timeless.reservation :=
    congrArg Pending.reservation hp
  have hrecord := timeless_record h p₁.reservation
  have hclock : ∀ c₁ c₂, timeless { s₁.record p₁.reservation with clock := c₁ } =
      timeless { s₂.record p₁.reservation with clock := c₂ } :=
    fun c₁ c₂ => congrArg (fun s => { s with clock := .unshifted }) hrecord
  simp only [finish, settle, h₁.1, h₂.1, if_true, ← herrand,
    show p₂.reservation = p₁.reservation from hreservation.symm]
  cases he : p₁.errand with
  | serverTime =>
    have hread₁ := h₁.2
    have hread₂ := h₂.2
    rw [he] at hread₁ hread₂
    simp only [takeBody, hread₁, hread₂]
    exact .ok ⟨hrecord, rfl⟩
  | syncTime sentAt =>
    have hread₁ := h₁.2
    have hread₂ := h₂.2
    rw [he] at hread₁ hread₂
    simp only [takeBody, hread₁, hread₂]
    exact .ok ⟨hclock _ _, rfl⟩
  | _ =>
    rw [he] at hasks
    cases hasks

end Session

/-! ## Runs -/

namespace Dialogue

variable {d₁ d₂ : Dialogue}

/-- The moves are the same, or they bring replies to a call that asks for the exchange's time, which
tell times that need not be the same. -/
inductive SameMove (d : Dialogue) : Move → Move → Prop where
  | same (move : Move) : SameMove d move move
  | told {number : Nat} {now : Readings} {p : Pending} {response₁ response₂ : Http.Response}
      {t₁ t₂ : Timestamp} (waits : d.waiting[number]? = some p)
      (asks : p.errand.endpoint = .serverTime) (tells₁ : Session.Tells p.errand response₁ t₁)
      (tells₂ : Session.Tells p.errand response₂ t₂) :
      SameMove d (.finish number now (.reply response₁)) (.finish number now (.reply response₂))

/-- The same moves one after another, but for the times that the exchange tells. -/
def Parallel (d : Dialogue) : List Move → List Move → Prop
  | [], [] => True
  | move₁ :: rest₁, move₂ :: rest₂ => d.SameMove move₁ move₂ ∧
      ∀ d' reaction, d.step move₁ = .ok (d', reaction) → d'.Parallel rest₁ rest₂
  | _, _ => False

/-- Calls in the same place are the same without times. -/
theorem getElem?_of_timeless (h : d₁.timeless = d₂.timeless) (number : Nat) :
    d₁.waiting[number]? = none ∧ d₂.waiting[number]? = none ∨
      ∃ p₁ p₂, d₁.waiting[number]? = some p₁ ∧ d₂.waiting[number]? = some p₂ ∧
        p₁.timeless = p₂.timeless := by
  have hwaiting := congrArg (fun d => d.waiting[number]?) h
  simp only [timeless, List.getElem?_map] at hwaiting
  cases h₁ : d₁.waiting[number]? with
  | none =>
    rw [h₁, Option.map_none, eq_comm, Option.map_eq_none_iff] at hwaiting
    exact Or.inl ⟨rfl, hwaiting⟩
  | some p₁ =>
    rw [h₁, Option.map_some, eq_comm, Option.map_eq_some_iff] at hwaiting
    obtain ⟨p₂, h₂, hp⟩ := hwaiting
    exact Or.inr ⟨p₁, p₂, rfl, h₂, hp.symm⟩

/-- Dialogues whose sessions and calls on their way are the same without times. -/
theorem timeless_mk {s₁ s₂ : Session} {waiting₁ waiting₂ : List Pending}
    (hs : s₁.timeless = s₂.timeless)
    (hwaiting : waiting₁.map Pending.timeless = waiting₂.map Pending.timeless) :
    timeless ⟨s₁, waiting₁⟩ = timeless ⟨s₂, waiting₂⟩ := by
  rw [timeless, timeless, hs, hwaiting]

theorem timeless_eraseIdx (h : d₁.timeless = d₂.timeless) (number : Nat) :
    (d₁.waiting.eraseIdx number).map Pending.timeless =
      (d₂.waiting.eraseIdx number).map Pending.timeless := by
  have hwaiting : d₁.waiting.map Pending.timeless = d₂.waiting.map Pending.timeless :=
    congrArg waiting h
  rw [← List.eraseIdx_map, ← List.eraseIdx_map, hwaiting]

/-- What comes of a call that is finished. -/
theorem timeless_of_answered (h : d₁.timeless = d₂.timeless) (number : Nat)
    {x y : Session × Except GatewayError Answer}
    (hxy : Session.Timeless (Except.map Answer.timeless) x y) :
    timeless ⟨x.1, d₁.waiting.eraseIdx number⟩ = timeless ⟨y.1, d₂.waiting.eraseIdx number⟩ ∧
      (Reaction.answered x.2).timeless = (Reaction.answered y.2).timeless :=
  ⟨timeless_mk hxy.1 (timeless_eraseIdx h number), congrArg Reaction.answered hxy.2⟩

/-- The same call is started, or refused, in both. -/
theorem timeless_of_start (h : d₁.timeless = d₂.timeless) (now : Readings) (expired : Bool)
    (call : Call) :
    Compatible (fun x y => x.1.timeless = y.1.timeless ∧ x.2.timeless = y.2.timeless)
      (d₁.step (.start now expired call)) (d₂.step (.start now expired call)) := by
  have hs : d₁.session.timeless = d₂.session.timeless := congrArg session h
  have hwaiting : d₁.waiting.map Pending.timeless = d₂.waiting.map Pending.timeless :=
    congrArg waiting h
  refine (Session.timeless_of_start hs now expired call).bind fun x y ⟨hsession, hresult⟩ => ?_
  obtain ⟨t₁, started₁⟩ := x
  obtain ⟨t₂, started₂⟩ := y
  cases started₁ with
  | error error =>
    cases started₂ with
    | error error' =>
      cases hresult
      exact .ok ⟨timeless_mk hsession hwaiting, rfl⟩
    | ok p₂ => cases hresult
  | ok p₁ =>
    cases started₂ with
    | error error => cases hresult
    | ok p₂ =>
      have hp : p₁.timeless = p₂.timeless := Except.ok.inj hresult
      refine .ok ⟨timeless_mk hsession ?_, congrArg Reaction.sent hp⟩
      rw [List.map_append, List.map_append, hwaiting, List.map_singleton, List.map_singleton, hp]

/-- The same delivery reaches the same call. -/
theorem timeless_of_finish (h : d₁.timeless = d₂.timeless) (number : Nat) (now : Readings)
    (delivery : Http.Delivery) :
    Compatible (fun x y => x.1.timeless = y.1.timeless ∧ x.2.timeless = y.2.timeless)
      (d₁.step (.finish number now delivery)) (d₂.step (.finish number now delivery)) := by
  simp only [step]
  rcases getElem?_of_timeless h number with ⟨h₁, h₂⟩ | ⟨p₁, p₂, h₁, h₂, hp⟩
  · simp only [h₁, h₂]
    exact .ok ⟨h, rfl⟩
  · simp only [h₁, h₂]
    exact (Session.timeless_of_finish (congrArg session h) now hp delivery).bind fun x y hxy =>
      .ok (timeless_of_answered h number hxy)

/-- Two times that the exchange tells reach the same call. -/
theorem timeless_of_told (h : d₁.timeless = d₂.timeless) {number : Nat} (now : Readings)
    {p : Pending} {response₁ response₂ : Http.Response} {t₁ t₂ : Timestamp}
    (waits : d₁.waiting[number]? = some p) (asks : p.errand.endpoint = .serverTime)
    (tells₁ : Session.Tells p.errand response₁ t₁) (tells₂ : Session.Tells p.errand response₂ t₂) :
    Compatible (fun x y => x.1.timeless = y.1.timeless ∧ x.2.timeless = y.2.timeless)
      (d₁.step (.finish number now (.reply response₁)))
      (d₂.step (.finish number now (.reply response₂))) := by
  rcases getElem?_of_timeless h number with ⟨hnone, _⟩ | ⟨p₁, p₂, h₁, h₂, hp⟩
  · rw [hnone] at waits
    cases waits
  · rw [h₁] at waits
    cases waits
    simp only [step, h₁, h₂]
    exact (Session.timeless_of_told (congrArg session h) now hp asks tells₁ tells₂).bind
      fun x y hxy => .ok (timeless_of_answered h number hxy)

/-- Moves that are the same but for the times that the exchange tells. -/
theorem timeless_of_step (h : d₁.timeless = d₂.timeless) {move₁ move₂ : Move}
    (hmove : d₁.SameMove move₁ move₂) :
    Compatible (fun x y => x.1.timeless = y.1.timeless ∧ x.2.timeless = y.2.timeless)
      (d₁.step move₁) (d₂.step move₂) := by
  have hs : d₁.session.timeless = d₂.session.timeless := congrArg session h
  have hwaiting : d₁.waiting.map Pending.timeless = d₂.waiting.map Pending.timeless :=
    congrArg waiting h
  have hlimiter : d₁.session.timeless.limiter = d₂.session.timeless.limiter :=
    congrArg Session.limiter hs
  have hlimiter : d₁.session.limiter = d₂.session.limiter := hlimiter
  cases hmove with
  | told waits asks tells₁ tells₂ => exact timeless_of_told h _ waits asks tells₁ tells₂
  | same =>
    cases move₁ with
    | start now expired call => exact timeless_of_start h now expired call
    | finish number now delivery => exact timeless_of_finish h number now delivery
    | nextSequence now =>
      obtain ⟨hsession, hsequence⟩ := Session.timeless_nextSequence hs now
      exact .ok ⟨timeless_mk hsession hwaiting, congrArg Reaction.place hsequence⟩
    | track o =>
      obtain ⟨hsession, hresult⟩ := Session.timeless_of_track hs (rfl : o.timeless = o.timeless)
      exact .ok ⟨timeless_mk hsession hwaiting, congrArg Reaction.tracked hresult⟩
    | applyUpdate u =>
      obtain ⟨hsession, hresult⟩ :=
        Session.timeless_of_applyUpdate hs (rfl : u.timeless = u.timeless)
      exact .ok ⟨timeless_mk hsession hwaiting, congrArg Reaction.updated hresult⟩
    | acknowledge clientId =>
      obtain ⟨hsession, hresult⟩ := Session.timeless_of_acknowledge hs clientId
      exact .ok ⟨timeless_mk hsession hwaiting, congrArg Reaction.acknowledged hresult⟩
    | usage tier now =>
      simp only [step, hlimiter]
      refine (Compatible.refl (fun _ => rfl) _).bind fun outcome _ he => ?_
      subst he
      exact .ok ⟨timeless_mk (Session.timeless_withLimiter hs outcome.1) hwaiting, rfl⟩
    | usages now =>
      simp only [step, hlimiter]
      refine (Compatible.refl (fun _ => rfl) _).bind fun outcome _ he => ?_
      subst he
      exact .ok ⟨timeless_mk (Session.timeless_withLimiter hs outcome.1) hwaiting, rfl⟩
    | streamEvent frame =>
      obtain ⟨tracker, clock, _, hs₂⟩ := Session.exists_of_timeless hs
      simp only [step, hs₂]
      exact .ok ⟨h, rfl⟩
    | subscribe pairs id =>
      obtain ⟨tracker, clock, _, hs₂⟩ := Session.exists_of_timeless hs
      simp only [step, hs₂]
      exact .ok ⟨h, rfl⟩

/-- Courses of the same moves, but for the times that the exchange tells. -/
theorem timeless_of_run {moves₁ moves₂ : List Move} (h : d₁.timeless = d₂.timeless)
    (hmoves : d₁.Parallel moves₁ moves₂) :
    Compatible (fun x y => x.1.timeless = y.1.timeless ∧
      x.2.map Reaction.timeless = y.2.map Reaction.timeless) (d₁.run moves₁) (d₂.run moves₂) := by
  induction moves₁ generalizing d₁ d₂ moves₂ with
  | nil =>
    cases moves₂ with
    | nil => exact .ok ⟨h, rfl⟩
    | cons move₂ rest₂ => cases hmoves
  | cons move₁ rest₁ ih =>
    cases moves₂ with
    | nil => cases hmoves
    | cons move₂ rest₂ =>
      obtain ⟨hmove, hrest⟩ := hmoves
      intro x y hx hy
      obtain ⟨d₁', reaction₁, later₁, hstep₁, hrun₁, hx⟩ := run_cons_eq_ok.mp hx
      obtain ⟨d₂', reaction₂, later₂, hstep₂, hrun₂, hy⟩ := run_cons_eq_ok.mp hy
      obtain ⟨hnext, hreaction⟩ := timeless_of_step h hmove _ _ hstep₁ hstep₂
      obtain ⟨hlast, hlater⟩ := ih hnext (hrest d₁' reaction₁ hstep₁) _ _ hrun₁ hrun₂
      refine ⟨hlast, ?_⟩
      rw [hx, hy, List.map_cons, List.map_cons, hreaction, hlater]

/-- **Setting the clock disturbs nothing.**  A session is used twice, at the same local times and
with the same deliveries, except that replies which tell the exchange's time may tell different
ones, and neither course is stopped.  Then, with the times that come from the exchange's clock
blotted out, the same comes of every move: the same calls are admitted and refused, with the same
errors, the same budget is reported, and the same places are given.  In the end, which may be
anywhere, the limiters are the same, the same calls are on their way, and the same orders are
tracked, which differ in their times alone. -/
theorem undisturbed_of_run {s : Session} {moves₁ moves₂ : List Move}
    (hmoves : (opening s).Parallel moves₁ moves₂) {reactions₁ reactions₂ : List Reaction}
    (h₁ : (opening s).run moves₁ = .ok (d₁, reactions₁))
    (h₂ : (opening s).run moves₂ = .ok (d₂, reactions₂)) :
    reactions₁.map Reaction.timeless = reactions₂.map Reaction.timeless ∧
    d₁.session.limiter = d₂.session.limiter ∧
    d₁.session.tracker.sequencer = d₂.session.tracker.sequencer ∧
    (∀ clientId, (d₁.session.tracker.get? clientId).map InFlightOrder.timeless =
      (d₂.session.tracker.get? clientId).map InFlightOrder.timeless) ∧
    (∀ exchangeId, d₁.session.tracker.clientId? exchangeId =
      d₂.session.tracker.clientId? exchangeId) ∧
    d₁.waiting.map Pending.timeless = d₂.waiting.map Pending.timeless := by
  obtain ⟨hlast, hreactions⟩ := timeless_of_run rfl hmoves _ _ h₁ h₂
  have hsession : d₁.session.timeless = d₂.session.timeless := congrArg session hlast
  have hlimiter : d₁.session.timeless.limiter = d₂.session.timeless.limiter :=
    congrArg Session.limiter hsession
  have htracker : d₁.session.tracker.timeless = d₂.session.tracker.timeless :=
    congrArg Session.tracker hsession
  have hsequencer : d₁.session.tracker.timeless.sequencer =
      d₂.session.tracker.timeless.sequencer := congrArg OrderTracker.sequencer htracker
  have hindex : d₁.session.tracker.timeless.exchangeIds =
      d₂.session.tracker.timeless.exchangeIds := congrArg OrderTracker.exchangeIds htracker
  refine ⟨hreactions, hlimiter, hsequencer, fun clientId => ?_,
    fun exchangeId => congrArg (fun index => Keyed.get? index exchangeId) hindex,
    congrArg waiting hlast⟩
  rw [← OrderTracker.get?_timeless, ← OrderTracker.get?_timeless, htracker]

/-- The exchange's time is asked for, and told in milliseconds. -/
def asking (millis : String) : List Move :=
  [.start (.still ⟨0, false⟩) false .syncTime,
    .finish 0 (.still ⟨0, false⟩) (.reply ⟨200, "\x7b\"serverTime\":" ++ millis ++ "\x7d"⟩)]

/-- Two times are told, and the limiter is the same whichever it was. -/
theorem undisturbed_by_asking : ∃ s d₁ reactions₁ d₂ reactions₂,
    Session.create .default ⟨"key", "secret", none⟩ = .ok s ∧
    (opening s).run (asking "1000") = .ok (d₁, reactions₁) ∧
    (opening s).run (asking "60000") = .ok (d₂, reactions₂) ∧
    d₁.session.clock ≠ d₂.session.clock ∧ d₁.session.limiter = d₂.session.limiter := by
  have hruns : (do
      let s ← (Session.create .default ⟨"key", "secret", none⟩).toOption
      let asked ← ((opening s).step (.start (.still ⟨0, false⟩) false .syncTime)).toOption
      let soon ← ((opening s).run (asking "1000")).toOption
      let late ← ((opening s).run (asking "60000")).toOption
      return (asked.1.waiting.map Pending.errand, soon.1.session.clock, late.1.session.clock)) =
      some ([.syncTime ⟨0, false⟩], ⟨1000⟩, ⟨60000⟩) := by
    decide +kernel
  have htold : ∀ (millis : String) (nanos : Int), (Session.serverTimeOf (.syncTime ⟨0, false⟩)
      ("\x7b\"serverTime\":" ++ millis ++ "\x7d")).toOption = some ⟨nanos, false⟩ →
      Session.Tells (.syncTime ⟨0, false⟩)
        ⟨200, "\x7b\"serverTime\":" ++ millis ++ "\x7d"⟩ ⟨nanos, false⟩ :=
    fun millis nanos h => ⟨rfl, toOption_eq_some_iff.mp h⟩
  simp only [Option.bind_eq_bind, Option.bind_eq_some_iff, toOption_eq_some_iff, Option.pure_def,
    Option.some.injEq, Prod.mk.injEq, Prod.exists] at hruns
  obtain ⟨s, hs, d, reaction, hasked, d₁, reactions₁, h₁, d₂, reactions₂, h₂, hwaiting, hclock₁,
    hclock₂⟩ := hruns
  have hparallel : (opening s).Parallel (asking "1000") (asking "60000") := by
    refine ⟨.same _, fun d' reaction' hstep => ⟨?_, fun _ _ _ => trivial⟩⟩
    rw [hasked] at hstep
    cases hstep
    have hfirst : (d.waiting.map Pending.errand)[0]? = some (.syncTime ⟨0, false⟩) := by
      rw [hwaiting]
      rfl
    rw [List.getElem?_map, Option.map_eq_some_iff] at hfirst
    obtain ⟨p, hp, herrand⟩ := hfirst
    refine .told hp (by rw [herrand]; rfl) (show Session.Tells _ _ ⟨1000000000, false⟩ from ?_)
      (show Session.Tells _ _ ⟨60000000000, false⟩ from ?_)
    · rw [herrand]
      exact htold "1000" _ (by decide +kernel)
    · rw [herrand]
      exact htold "60000" _ (by decide +kernel)
  refine ⟨s, d₁, reactions₁, d₂, reactions₂, hs, h₁, h₂, ?_,
    (undisturbed_of_run hparallel h₁ h₂).2.1⟩
  rw [hclock₁, hclock₂]
  decide

end Dialogue

end SpotGateway
