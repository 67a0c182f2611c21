import SpotGateway.Proofs.Order.Ownership

/-!
# Orders side by side

The record of an order is no business of the requests that name other orders.  Its entry in the
index is only its own as long as no other order gets its exchange id: there is one entry for each
exchange id, and the last order to get the id has it.

* `OrderTracker.Request.clientId` — the order that a request names;
* `OrderTracker.get?_handle_of_ne` — the records of other orders stay as they are;
* `OrderTracker.Takes` — the request lays hands on an exchange id;
* `OrderTracker.clientId?_handle_of_not_takes`, `OrderTracker.clientId?_handle_of_takes` — what
  becomes of the entry of an exchange id;
* `OrderTracker.undisturbed_of_handle` — what a request leaves of an order that it does not name;
* `OrderTracker.disturbed_of_sharedId` — an order that is not found by its exchange id any more.
-/

set_option autoImplicit false

namespace SpotGateway.OrderTracker

/-- The client id of the order that the request names. -/
def Request.clientId : Request → String
  | .track o => o.clientId
  | .apply u => u.clientId
  | .acknowledge clientId => clientId

variable {t : OrderTracker} {o : InFlightOrder} {r : Request} {clientId exchangeId : String}

/-! ## Records -/

theorem get?_handle_of_ne (t : OrderTracker) (h : r.clientId ≠ clientId) :
    (t.handle r).get? clientId = t.get? clientId := by
  cases r with
  | track o =>
    have hne : clientId ≠ o.clientId := Ne.symm h
    simp only [handle, get?_track, if_neg hne]
  | apply u =>
    have hne : clientId ≠ u.clientId := Ne.symm h
    simp only [handle, get?_apply, if_neg hne]
  | acknowledge other =>
    have hne : clientId ≠ other := Ne.symm h
    simp only [handle]
    rcases acknowledge_cases t other with ⟨_, ho, terminal, _⟩ | ⟨_, error, hack⟩
    · rw [get?_acknowledge_of_terminal ho terminal, if_neg hne]
    · rw [hack]

/-! ## Entries of the index -/

/-- The request lays hands on the entry of the exchange id: it brings an order that has the id, it
gives the id to an order that has none, or it lets an order go that has the id. -/
def Takes (t : OrderTracker) (exchangeId : String) : Request → Prop
  | .track o => o.exchangeId = some exchangeId
  | .apply u => ∃ o, t.get? u.clientId = some o ∧ (o.applyUpdate u).2.isApplied = true ∧
      o.exchangeId = none ∧ u.exchangeId = some exchangeId
  | .acknowledge clientId => ∃ o, t.get? clientId = some o ∧ o.isTerminal = true ∧
      o.exchangeId = some exchangeId

/-- The order that is found by an exchange id once the request has laid hands on it. -/
def Request.heir? : Request → Option String
  | .track o => some o.clientId
  | .apply u => some u.clientId
  | .acknowledge _ => none

theorem clientId?_handle_of_not_takes (h : ¬ t.Takes exchangeId r) :
    (t.handle r).clientId? exchangeId = t.clientId? exchangeId := by
  cases r with
  | track o => exact (clientId?_track t o exchangeId).trans (if_neg h)
  | apply u =>
    simp only [handle]
    rcases apply_cases t u with ⟨o, ho, before, ongoing, agrees, happly⟩ | ⟨hsame, _⟩
    · have hcounts := InFlightOrder.applyUpdate_of_counts before ongoing agrees
      have happlied : (o.applyUpdate u).2.isApplied = true := by
        rw [hcounts]
        rfl
      rw [happly, clientId?_advance, if_neg]
      rintro ⟨hnone, hid⟩
      exact h ⟨o, ho, happlied, hnone, hid⟩
    · rw [hsame]
  | acknowledge clientId =>
    simp only [handle]
    rcases acknowledge_cases t clientId with ⟨o, ho, terminal, _⟩ | ⟨_, error, hack⟩
    · rw [clientId?_acknowledge_of_terminal ho terminal, if_neg]
      intro hid
      exact h ⟨o, ho, terminal, hid⟩
    · rw [hack]

theorem clientId?_handle_of_takes (filed : t.Filed) (h : t.Takes exchangeId r) :
    (t.handle r).clientId? exchangeId = r.heir? := by
  cases r with
  | track o => exact (clientId?_track t o exchangeId).trans (if_pos h)
  | apply u =>
    obtain ⟨o, ho, happlied, hnone, hid⟩ := h
    simp only [handle]
    rcases o.counts_or_unchanged u with ⟨before, ongoing, agrees, _⟩ | ⟨_, ignored⟩
    · rw [apply_of_counts ho before ongoing agrees, clientId?_advance, if_pos ⟨hnone, hid⟩,
        filed.own u.clientId o ho]
      rfl
    · rw [ignored] at happlied
      cases happlied
  | acknowledge clientId =>
    obtain ⟨o, ho, terminal, hid⟩ := h
    exact (clientId?_acknowledge_of_terminal ho terminal exchangeId).trans (if_pos hid)

/-! ## An order among others -/

/-- **What a request leaves of an order that it does not name.**  After every run, take an order
that is found by an exchange id, and a request that names another order:

* the record of the order stays as it is;
* the order is still found by its exchange id unless the request lays hands on the id;
* and if it does, and no order is refused, the entry goes to the order that the request names, or
  goes with it. -/
theorem undisturbed_of_handle (requests : List Request)
    (ho : (empty.run requests).get? clientId = some o)
    (hfound : (empty.run requests).clientId? exchangeId = some clientId)
    (hother : r.clientId ≠ clientId) :
    let t := empty.run requests
    (t.handle r).get? clientId = some o ∧
    (¬ t.Takes exchangeId r →
      (t.handle r).clientId? exchangeId = some clientId ∧
      (t.handle r).getByExchangeId? exchangeId = some o) ∧
    (t.Takes exchangeId r → Turn.isRefused ⟨t, r⟩ = false →
      (t.handle r).clientId? exchangeId = r.heir? ∧ r.heir? ≠ some clientId) := by
  intro t
  have hfiled : t.Filed := Filed.empty.of_run requests
  have hrecord : (t.handle r).get? clientId = some o := (get?_handle_of_ne t hother).trans ho
  refine ⟨hrecord, ?_, ?_⟩
  · intro hspared
    have hentry := (clientId?_handle_of_not_takes hspared).trans hfound
    refine ⟨hentry, ?_⟩
    simp only [getByExchangeId?, hentry]
    exact hrecord
  · intro htakes _
    refine ⟨clientId?_handle_of_takes hfiled htakes, ?_⟩
    cases r with
    | track o' => exact fun heq => hother (Option.some.inj heq)
    | apply u => exact fun heq => hother (Option.some.inj heq)
    | acknowledge other => simp [Request.heir?]

/-- Two orders were submitted, and one of them rests on the book. -/
def oneOnBook : List Request :=
  [.track (submitted "c1"), .track (submitted "c2"), .apply (observation "c1" "e1" .open 1)]

/-- The other order comes to the book under an exchange id of its own, or under the one that is
taken. -/
theorem undisturbed_oneOnBook : ∃ o, (empty.run oneOnBook).get? "c1" = some o ∧
    (empty.run oneOnBook).clientId? "e1" = some "c1" ∧
    ((empty.run oneOnBook).handle (.apply (observation "c2" "e2" .open 2))).getByExchangeId? "e1" =
      some o ∧
    ((empty.run oneOnBook).handle (.apply (observation "c2" "e1" .open 2))).get? "c1" = some o ∧
    ((empty.run oneOnBook).handle (.apply (observation "c2" "e1" .open 2))).clientId? "e1" =
      some "c2" := by
  obtain ⟨o, ho⟩ : ∃ o, (empty.run oneOnBook).get? "c1" = some o := ⟨_, rfl⟩
  have hfound : (empty.run oneOnBook).clientId? "e1" = some "c1" := rfl
  have hspared : ¬ (empty.run oneOnBook).Takes "e1" (.apply (observation "c2" "e2" .open 2)) := by
    rintro ⟨_, _, _, _, hid⟩
    exact absurd hid (by decide)
  have htakes : (empty.run oneOnBook).Takes "e1" (.apply (observation "c2" "e1" .open 2)) :=
    ⟨_, rfl, rfl, rfl, rfl⟩
  have hown := undisturbed_of_handle oneOnBook ho hfound
    (r := .apply (observation "c2" "e2" .open 2)) (by decide)
  have hshared := undisturbed_of_handle oneOnBook ho hfound
    (r := .apply (observation "c2" "e1" .open 2)) (by decide)
  exact ⟨o, ho, hfound, (hown.2.1 hspared).2, hshared.1, (hshared.2.2 htakes rfl).1⟩

/-- The exchange id of an order is reported of another one as well, which has none.  The first is no
longer found by it, and once the other is let go, nothing is. -/
theorem disturbed_of_sharedId :
    let t := empty.run oneOnBook
    let t' := t.handle (.apply (observation "c2" "e1" .filled 2))
    (∃ o, t.get? "c1" = some o ∧ o.exchangeId = some "e1" ∧ t.getByExchangeId? "e1" = some o) ∧
    t.clientId? "e1" = some "c1" ∧ t'.clientId? "e1" = some "c2" ∧
    t'.getByExchangeId? "e1" ≠ t.getByExchangeId? "e1" ∧
    (t'.handle (.acknowledge "c2")).clientId? "e1" = none := by
  refine ⟨⟨_, rfl, rfl, rfl⟩, ?_⟩
  decide

end SpotGateway.OrderTracker
