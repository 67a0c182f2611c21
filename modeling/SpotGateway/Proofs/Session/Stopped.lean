import SpotGateway.Proofs.Session.Faults
import SpotGateway.Session.Stopped

/-!
# What is left when an operation is stopped

* `Limiter.rolled_afterStoppedUsage`, `Limiter.rolled_afterStoppedUsages` — looking changes no counts
  even if it is stopped;
* `Session.Unsent`, `Session.unsent_of_stop` — all that can be left of a call that is stopped before
  its request is sent;
* `Session.afterStoppedBody_eq` — of a list of orders, the first entries are left;
* `Session.attemptStart_cases`, `Session.attemptFinish_cases` — both halves, stopped or not.
-/

set_option autoImplicit false

namespace SpotGateway

namespace Limiter

variable {now : Timestamp}

theorem id_afterStoppedReserve (l : Limiter) (tier : String) (now : Timestamp) :
    (l.afterStoppedReserve tier now).id = l.id := by
  unfold afterStoppedReserve
  split <;> rfl

theorem stats_afterStoppedReserve (l : Limiter) (tier : String) (now : Timestamp) :
    (l.afterStoppedReserve tier now).stats = l.stats := by
  unfold afterStoppedReserve
  split <;> rfl

theorem rolled_afterStoppedUsage (l : Limiter) (tier : String) (now : Timestamp) :
    Rolled now l.gauges (l.afterStoppedUsage tier now).gauges := by
  intro p
  simp only [afterStoppedUsage, List.getElem?_map]
  cases l.gauges[p]? with
  | none => exact .inl rfl
  | some g =>
    simp only [Option.map_some]
    split
    · exact .inr rfl
    · exact .inl rfl

theorem rolled_rolledUntilStopped (now : Timestamp) (gauges : List Gauge) :
    Rolled now gauges (rolledUntilStopped now gauges) := by
  induction gauges with
  | nil => exact fun _ => .inl rfl
  | cons g rest ih =>
    unfold rolledUntilStopped
    intro p
    split <;> cases p
    · exact .inr rfl
    · exact ih _
    · exact .inr rfl
    · exact .inl rfl

theorem rolled_afterStoppedUsages (l : Limiter) (now : Timestamp) :
    Rolled now l.gauges (l.afterStoppedUsages now).gauges :=
  rolled_rolledUntilStopped now l.gauges

end Limiter

namespace Session

variable {s s' : Session} {fault : Fault}

/-! ## Calls whose request was not sent -/

/-- All that can be left of a call that is stopped before its request is sent. -/
inductive Unsent (s : Session) (now : Readings) (call : Call) (fault : Fault) (s' : Session) :
    Prop where
  /-- It was stopped in being planned. -/
  | unplanned (planned : s.plan now.record call = .error fault) (unchanged : s' = s)
  /-- It was stopped while budget was asked for. -/
  | unreserved (errand : Errand) (planned : s.plan now.record call = .ok (.ok errand))
      (stopped : s.limiter.reserve errand.endpoint.tier now.limiter = .error fault)
      (changed : s' =
        { s with limiter := s.limiter.afterStoppedReserve errand.endpoint.tier now.limiter })
  /-- It was stopped in being signed, and holds its budget. -/
  | stranded (errand : Errand) (limiter : Limiter) (reservation : Reservation)
      (planned : s.plan now.record call = .ok (.ok errand))
      (reserved : s.limiter.reserve errand.endpoint.tier now.limiter =
        .ok (limiter, .ok reservation))
      (overflow : fault = .dateOverflow) (signs : s.Signs errand)
      (outside : s.OffCalendar now.signature) (changed : s' = { s with limiter })

theorem unsent_of_stop {now : Readings} {expired : Bool} {call : Call}
    (h : s.start now expired call = .error fault) :
    s.Unsent now call fault (s.afterStoppedStart now call) := by
  unfold afterStoppedStart
  rcases bind_eq_error.mp h with hplan | ⟨planned, hplan, h⟩
  · rw [hplan]
    exact .unplanned hplan rfl
  · cases planned with
    | error error => cases h
    | ok errand =>
      simp only [hplan]
      rcases bind_eq_error.mp h with hreserve | ⟨⟨limiter, admitted⟩, hreserve, h⟩
      · rw [hreserve]
        exact .unreserved errand hplan hreserve rfl
      · simp only [hreserve]
        cases admitted with
        | error refusal => cases h
        | ok reservation =>
          rcases bind_eq_error.mp h with hrequest | ⟨request, _, h⟩
          · -- the request is the same before and after the reservation
            have hrequest : s.requestOf now.signature errand = .error fault := hrequest
            obtain ⟨hfault, hsigns, houtside⟩ := requestOf_eq_error_iff.mp hrequest
            exact .stranded errand limiter reservation hplan hreserve hfault hsigns houtside rfl
          · split at h
            · cases h
            · split at h <;> cases h

/-- A call that is stopped before its request is sent changes nothing but the budget. -/
theorem Unsent.changes {now : Readings} {call : Call} (h : s.Unsent now call fault s') :
    ∃ limiter, s' = { s with limiter } := by
  cases h with
  | unplanned planned unchanged => exact ⟨s.limiter, unchanged⟩
  | unreserved errand planned stopped changed => exact ⟨_, changed⟩
  | stranded errand limiter reservation planned reserved overflow signs outside changed =>
    exact ⟨limiter, changed⟩

/-- Starting a call, stopped or not. -/
theorem attemptStart_cases {now : Readings} {expired : Bool} {call : Call}
    {result : Checked (Except GatewayError Pending)}
    (h : s.attemptStart now expired call = (s', result)) :
    (∃ answer, result = .ok answer ∧ s.start now expired call = .ok (s', answer)) ∨
      ∃ fault, result = .error fault ∧ s.start now expired call = .error fault ∧
        s.Unsent now call fault s' := by
  unfold attemptStart at h
  cases hstart : s.start now expired call with
  | error fault =>
    rw [hstart] at h
    cases h
    exact .inr ⟨fault, rfl, rfl, unsent_of_stop hstart⟩
  | ok started =>
    rw [hstart] at h
    cases h
    exact .inl ⟨started.2, rfl, rfl⟩

/-! ## Calls whose request was sent -/

/-- The entries ahead of the one that stopped are left as observations of their orders. -/
theorem afterStoppedReports_eq (s : Session) (receivedAt : Timestamp) (sequence : Nat)
    (entries : List OrderListEntry) : ∃ heard : List OrderReport,
      (∀ report ∈ heard, report.sequence = sequence) ∧
      s.afterStoppedReports receivedAt sequence entries = heard.foldl observe s := by
  induction entries generalizing s with
  | nil => exact ⟨[], by simp, rfl⟩
  | cons e rest ih =>
    unfold afterStoppedReports
    split
    · exact ⟨[], by simp, rfl⟩
    · split
      · exact ⟨[], by simp, rfl⟩
      · rename_i report hreport
        obtain ⟨heard, hplaces, hobserved⟩ := ih (s.observe report)
        refine ⟨report :: heard, ?_, hobserved⟩
        intro report' hreport'
        rcases List.mem_cons.mp hreport' with rfl | hreport'
        · exact sequence_reportOf hreport
        · exact hplaces report' hreport'

theorem afterStoppedBody_eq (s : Session) (now : Timestamp) (sequence : Nat) (e : Errand)
    (body : String) : ∃ heard : List OrderReport,
      (∀ report ∈ heard, report.sequence = sequence) ∧
      s.afterStoppedBody now sequence e body = heard.foldl observe s := by
  unfold afterStoppedBody
  split
  case h_1 =>
    split
    · exact afterStoppedReports_eq _ _ _ _
    · exact ⟨[], by simp, rfl⟩
  case h_2 =>
    split
    · exact afterStoppedReports_eq _ _ _ _
    · exact ⟨[], by simp, rfl⟩
  case h_3 => exact ⟨[], by simp, rfl⟩

/-- Finishing a call, stopped or not.  If it is stopped, it has been settled before, and nothing is
left of its reply but observations of orders, under the place of the request. -/
theorem attemptFinish_cases {now : Readings} {p : Pending} {delivery : Http.Delivery}
    {result : Checked (Except GatewayError Answer)}
    (h : s.attemptFinish now p delivery = (s', result)) :
    (∃ answer, result = .ok answer ∧ s.finish now p delivery = .ok (s', answer)) ∨
      ∃ (fault : Fault) (heard : List OrderReport), result = .error fault ∧
        s.finish now p delivery = .error fault ∧
        (∀ report ∈ heard, report.sequence = p.sequence) ∧
        s' = heard.foldl observe (s.settle now.limiter p.reservation delivery).1 := by
  unfold attemptFinish at h
  cases hfinish : s.finish now p delivery with
  | error fault =>
    rw [hfinish] at h
    cases h
    refine .inr ⟨fault, ?_⟩
    unfold afterStoppedFinish
    split
    · rename_i s₁ error hsettle
      exact ⟨[], rfl, rfl, by simp, by rw [hsettle]; rfl⟩
    · rename_i s₁ body hsettle
      obtain ⟨heard, hplaces, hobserved⟩ :=
        s₁.afterStoppedBody_eq now.record p.sequence p.errand body
      exact ⟨heard, rfl, rfl, hplaces, by rw [hsettle]; exact hobserved⟩
  | ok outcome =>
    rw [hfinish] at h
    cases h
    exact .inl ⟨outcome.2, rfl, rfl⟩

end Session

end SpotGateway
