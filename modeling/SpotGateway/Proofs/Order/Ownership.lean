import SpotGateway.Proofs.Order.Lifecycle

/-!
# Exchange ids and the orders that have them

What the index finds by an exchange id is an order that has this id, unless an order was refused
that had it.  An order is found by its exchange id, unless the exchange gave the id to another
order as well.

* `Unambiguous` — no exchange id is given to two orders;
* `OrderTracker.Leads` — the index leads to orders that have the exchange id;
* `OrderTracker.Indexed` — the index holds ids that were given, and finds every order by its id;
* `OrderTracker.Turn.isRefused`, `OrderTracker.Turn.given?` — what a request of a run does with
  exchange ids;
* `OrderTracker.Leads.of_run`, `OrderTracker.Indexed.of_run` — runs keep the two;
* `OrderTracker.index_of_run` — the index after a run.
-/

set_option autoImplicit false

namespace SpotGateway

/-- No exchange id is given to two orders.  Entries are exchange ids, each with the client id of the
order that it is given to. -/
def Unambiguous (given : List (String × String)) : Prop :=
  ∀ exchangeId a b, (exchangeId, a) ∈ given → (exchangeId, b) ∈ given → a = b

theorem Unambiguous.of_subset {given later : List (String × String)} (h : Unambiguous later)
    (hsub : given ⊆ later) : Unambiguous given :=
  fun exchangeId a b ha hb => h exchangeId a b (hsub ha) (hsub hb)

theorem unambiguous_iff {given : List (String × String)} : Unambiguous given ↔
    ∀ x ∈ given, ∀ y ∈ given, x.1 = y.1 → x.2 = y.2 := by
  constructor
  · rintro h ⟨exchangeId, a⟩ ha ⟨_, b⟩ hb rfl
    exact h exchangeId a b ha hb
  · intro h exchangeId a b ha hb
    exact h (exchangeId, a) ha (exchangeId, b) hb rfl

instance (given : List (String × String)) : Decidable (Unambiguous given) :=
  decidable_of_iff _ unambiguous_iff.symm

namespace OrderTracker

variable {t : OrderTracker} {o : InFlightOrder} {u : OrderUpdate} {r : Request}
  {clientId : String} {given : List (String × String)} {requests : List Request}

/-! ## What the index leads to -/

/-- What the index finds by an exchange id is an order that has the id. -/
def Leads (t : OrderTracker) : Prop :=
  ∀ exchangeId clientId, t.clientId? exchangeId = some clientId →
    ∃ o, t.get? clientId = some o ∧ o.exchangeId = some exchangeId

theorem Leads.empty : Leads empty := by
  intro exchangeId clientId h
  cases h

/-- An order that is tracked takes over the entry of its exchange id, and has that id. -/
theorem Leads.track (h : t.Leads) (hadmitted : (t.track o).2 = .ok ()) :
    (t.track o).1.Leads := by
  intro exchangeId clientId hfound
  rw [clientId?_track] at hfound
  split at hfound
  · rename_i hid
    cases hfound
    exact ⟨o, get?_of_track hadmitted, hid⟩
  · obtain ⟨o', ho', hid'⟩ := h exchangeId clientId hfound
    refine ⟨o', ?_, hid'⟩
    rw [get?_track, ho', Option.getD_some, ite_self]

/-- An order that takes an observation in keeps the exchange id that it is found by. -/
theorem Leads.apply (h : t.Leads) (filed : t.Filed) (u : OrderUpdate) : (t.apply u).1.Leads := by
  rcases apply_cases t u with ⟨o, ho, _, _, _, happly⟩ | ⟨hsame, _⟩
  · have hown : o.clientId = u.clientId := filed.own u.clientId o ho
    rw [happly]
    intro exchangeId clientId hfound
    rw [clientId?_advance] at hfound
    split at hfound
    · rename_i hfirst
      obtain ⟨hnone, hid⟩ := hfirst
      cases hfound
      refine ⟨o.advance u, ?_, (InFlightOrder.exchangeId_advance_of_none hnone).trans hid⟩
      rw [hown]
      exact get?_advance t o u
    · obtain ⟨o', ho', hid'⟩ := h exchangeId clientId hfound
      by_cases heq : clientId = u.clientId
      · subst heq
        rw [ho, Option.some.injEq] at ho'
        subst ho'
        exact ⟨o.advance u, get?_advance t o u, InFlightOrder.exchangeId_advance_of_some hid'⟩
      · exact ⟨o', (get?_advance_of_ne heq).trans ho', hid'⟩
  · rw [hsame]
    exact h

/-- The one exchange id that an order is found by goes with it. -/
theorem Leads.acknowledge (h : t.Leads) (clientId : String) : (t.acknowledge clientId).1.Leads := by
  rcases acknowledge_cases t clientId with ⟨o, ho, terminal, _⟩ | ⟨_, error, hack⟩
  · intro exchangeId other hfound
    rw [clientId?_acknowledge_of_terminal ho terminal] at hfound
    split at hfound
    · cases hfound
    · rename_i hid
      obtain ⟨o', ho', hid'⟩ := h exchangeId other hfound
      have hne : other ≠ clientId := by
        rintro rfl
        rw [ho, Option.some.injEq] at ho'
        exact hid (ho' ▸ hid')
      exact ⟨o', get?_acknowledge ho' (Or.inl hne), hid'⟩
  · rw [hack]
    exact h

/-! ## What the index finds -/

/-- The index holds exchange ids that were given, and finds every order by its id. -/
structure Indexed (t : OrderTracker) (given : List (String × String)) : Prop where
  known : ∀ exchangeId clientId, t.clientId? exchangeId = some clientId →
    (exchangeId, clientId) ∈ given
  found : Unambiguous given → ∀ clientId o exchangeId, t.get? clientId = some o →
    o.exchangeId = some exchangeId → t.clientId? exchangeId = some clientId

theorem Indexed.empty (given : List (String × String)) : Indexed empty given := by
  refine ⟨?_, ?_⟩
  · intro exchangeId clientId h
    cases h
  · intro _ clientId o exchangeId ho
    cases ho

theorem Indexed.track (h : t.Indexed given)
    (hgiven : ∀ exchangeId, o.exchangeId = some exchangeId → (exchangeId, o.clientId) ∈ given) :
    (t.track o).1.Indexed given := by
  refine ⟨?_, ?_⟩
  · intro exchangeId clientId hfound
    rw [clientId?_track] at hfound
    split at hfound
    · rename_i hid
      cases hfound
      exact hgiven exchangeId hid
    · exact h.known exchangeId clientId hfound
  · intro hunique clientId o' exchangeId ho' hid'
    rw [get?_track] at ho'
    rw [clientId?_track]
    cases hold : t.get? clientId with
    | some known =>
      -- an order that was there is the same, and none but it was given its exchange id
      simp only [hold, Option.getD_some, ite_self] at ho'
      have hformer := h.found hunique clientId o' exchangeId (hold.trans ho') hid'
      split
      · rename_i hid
        rw [hunique exchangeId _ _ (hgiven exchangeId hid) (h.known exchangeId clientId hformer)]
      · exact hformer
    | none =>
      simp only [hold, Option.getD_none] at ho'
      split at ho'
      · rename_i heq
        cases ho'
        rw [if_pos hid', heq]
      · cases ho'

theorem Indexed.apply (h : t.Indexed given) (filed : t.Filed)
    (hgiven : ∀ previous current exchangeId, (t.apply u).2 = .ok (.applied previous current) →
      u.exchangeId = some exchangeId → (exchangeId, u.clientId) ∈ given) :
    (t.apply u).1.Indexed given := by
  rcases apply_cases t u with ⟨o, ho, _, _, _, happly⟩ | ⟨hsame, _⟩
  · have hown : o.clientId = u.clientId := filed.own u.clientId o ho
    have hnew : ∀ exchangeId, u.exchangeId = some exchangeId → (exchangeId, o.clientId) ∈ given :=
      fun exchangeId hid => hown ▸ hgiven _ _ exchangeId (congrArg Prod.snd happly) hid
    rw [happly]
    refine ⟨?_, ?_⟩
    · intro exchangeId clientId hfound
      rw [clientId?_advance] at hfound
      split at hfound
      · rename_i hfirst
        cases hfound
        exact hnew exchangeId hfirst.2
      · exact h.known exchangeId clientId hfound
    · intro hunique clientId o' exchangeId ho' hid'
      rw [clientId?_advance]
      by_cases heq : clientId = u.clientId
      · rw [heq, get?_advance] at ho'
        cases ho'
        cases hid : o.exchangeId with
        | none =>
          rw [InFlightOrder.exchangeId_advance_of_none hid] at hid'
          rw [if_pos ⟨rfl, hid'⟩, hown, heq]
        | some known =>
          rw [InFlightOrder.exchangeId_advance_of_some hid] at hid'
          rw [if_neg (by simp), heq]
          exact h.found hunique u.clientId o exchangeId ho (hid.trans hid')
      · rw [get?_advance_of_ne heq] at ho'
        have hformer := h.found hunique clientId o' exchangeId ho' hid'
        split
        · rename_i hfirst
          rw [hunique exchangeId _ _ (hnew exchangeId hfirst.2)
            (h.known exchangeId clientId hformer)]
        · exact hformer
  · rw [hsame]
    exact h

/-- The order that is let go takes its exchange id along, which is no other order's. -/
theorem Indexed.acknowledge (h : t.Indexed given) (clientId : String) :
    (t.acknowledge clientId).1.Indexed given := by
  rcases acknowledge_cases t clientId with ⟨o, ho, terminal, _⟩ | ⟨_, error, hack⟩
  · refine ⟨?_, ?_⟩
    · intro exchangeId other hfound
      rw [clientId?_acknowledge_of_terminal ho terminal] at hfound
      split at hfound
      · cases hfound
      · exact h.known exchangeId other hfound
    · intro hunique other o' exchangeId ho' hid'
      rw [clientId?_acknowledge_of_terminal ho terminal]
      have hother := h.found hunique other o' exchangeId (get?_of_get?_acknowledge ho') hid'
      split
      · rename_i hid
        have hgone := h.found hunique clientId o exchangeId ho hid
        have heq : other = clientId := Option.some.inj (hother.symm.trans hgone)
        rw [get?_acknowledge_of_terminal ho terminal, if_pos heq] at ho'
        cases ho'
      · exact hother
  · rw [hack]
    exact h

/-! ## Runs -/

/-- The request is to track an order, and is refused. -/
def Turn.isRefused (x : Turn) : Bool :=
  match x.request with
  | .track o => !(x.tracker.track o).2.isOk
  | _ => false

/-- The exchange id that a request gives to an order, with the client id of the order: that of an
order to be tracked, or that of an observation that counts. -/
def Turn.given? (x : Turn) : Option (String × String) :=
  match x.request with
  | .track o => o.exchangeId.map fun exchangeId => (exchangeId, o.clientId)
  | .apply u =>
    match (x.tracker.apply u).2 with
    | .ok (.applied _ _) => u.exchangeId.map fun exchangeId => (exchangeId, u.clientId)
    | _ => none
  | .acknowledge _ => none

theorem Leads.handle (h : t.Leads) (filed : t.Filed)
    (hadmitted : Turn.isRefused ⟨t, r⟩ = false) : (t.handle r).Leads := by
  cases r with
  | track o =>
    refine h.track ?_
    cases htrack : (t.track o).2 with
    | ok done => rfl
    | error e => simp [Turn.isRefused, htrack, Except.isOk, Except.toBool] at hadmitted
  | apply u => exact h.apply filed u
  | acknowledge clientId => exact h.acknowledge clientId

theorem Leads.of_run (h : t.Leads) (filed : t.Filed)
    (hadmitted : ∀ x ∈ t.turns requests, x.isRefused = false) : (t.run requests).Leads := by
  induction requests generalizing t with
  | nil => exact h
  | cons r rest ih =>
    have hstep := h.handle filed (hadmitted ⟨t, r⟩ List.mem_cons_self)
    exact ih hstep (filed.handle r) fun x hx => hadmitted x (List.mem_cons_of_mem _ hx)

theorem Indexed.handle (h : t.Indexed given) (filed : t.Filed)
    (hgiven : ∀ pair, Turn.given? ⟨t, r⟩ = some pair → pair ∈ given) :
    (t.handle r).Indexed given := by
  cases r with
  | track o =>
    refine h.track fun exchangeId hid => hgiven _ ?_
    simp [Turn.given?, hid]
  | apply u =>
    refine h.apply filed fun previous current exchangeId happly hid => hgiven _ ?_
    simp [Turn.given?, happly, hid]
  | acknowledge clientId => exact h.acknowledge clientId

theorem Indexed.of_run (h : t.Indexed given) (filed : t.Filed)
    (hgiven : (t.turns requests).filterMap Turn.given? ⊆ given) :
    (t.run requests).Indexed given := by
  induction requests generalizing t with
  | nil => exact h
  | cons r rest ih =>
    have hturn : ∀ x ∈ t.turns (r :: rest), ∀ pair, x.given? = some pair → pair ∈ given :=
      fun x hx pair hpair => hgiven (List.mem_filterMap.mpr ⟨x, hx, hpair⟩)
    refine ih (h.handle filed (hturn ⟨t, r⟩ List.mem_cons_self)) (filed.handle r) ?_
    intro pair hpair
    obtain ⟨x, hx, hgiven'⟩ := List.mem_filterMap.mp hpair
    exact hturn x (List.mem_cons_of_mem _ hx) pair hgiven'

/-- **The index holds the exchange ids of the orders, and nothing else.**  After every run in which
no order is refused and no exchange id is given to two orders:

* an exchange id is found to be that of a client id exactly if the order of the client id is there
  and has it;
* looking an order up by an exchange id finds exactly the orders that have it;
* and an order that is let go leaves no entry behind. -/
theorem index_of_run (requests : List Request)
    (hadmitted : ∀ x ∈ empty.turns requests, x.isRefused = false)
    (hunique : Unambiguous ((empty.turns requests).filterMap Turn.given?)) :
    let t := empty.run requests
    (∀ exchangeId clientId, t.clientId? exchangeId = some clientId ↔
      ∃ o, t.get? clientId = some o ∧ o.exchangeId = some exchangeId) ∧
    (∀ exchangeId o, t.getByExchangeId? exchangeId = some o ↔
      t.get? o.clientId = some o ∧ o.exchangeId = some exchangeId) ∧
    ∀ clientId o, (t.acknowledge clientId).2 = .ok o →
      (∀ exchangeId, (t.acknowledge clientId).1.clientId? exchangeId ≠ some clientId) ∧
      ∀ exchangeId, o.exchangeId = some exchangeId →
        (t.acknowledge clientId).1.clientId? exchangeId = none := by
  intro t
  have hfiled : t.Filed := Filed.empty.of_run requests
  have hleads : t.Leads := Leads.empty.of_run Filed.empty hadmitted
  have hindexed : t.Indexed ((empty.turns requests).filterMap Turn.given?) :=
    (Indexed.empty _).of_run Filed.empty fun _ hpair => hpair
  have hiff : ∀ exchangeId clientId, t.clientId? exchangeId = some clientId ↔
      ∃ o, t.get? clientId = some o ∧ o.exchangeId = some exchangeId := by
    intro exchangeId clientId
    constructor
    · exact hleads exchangeId clientId
    · rintro ⟨o, ho, hid⟩
      exact hindexed.found hunique clientId o exchangeId ho hid
  refine ⟨hiff, ?_, ?_⟩
  · intro exchangeId o
    simp only [getByExchangeId?, Option.bind_eq_bind, Option.bind_eq_some_iff, hiff]
    constructor
    · rintro ⟨clientId, ⟨o', ho', hid⟩, ho⟩
      rw [ho', Option.some.injEq] at ho
      subst ho
      rw [hfiled.own clientId o' ho']
      exact ⟨ho', hid⟩
    · rintro ⟨ho, hid⟩
      exact ⟨o.clientId, ⟨o, ho, hid⟩, ho⟩
  · intro clientId o hok
    obtain ⟨ho, terminal⟩ := acknowledge_eq_ok_iff.mp hok
    refine ⟨?_, ?_⟩
    · intro exchangeId hentry
      obtain ⟨o', ho', _⟩ := hleads.acknowledge clientId exchangeId clientId hentry
      rw [get?_acknowledge_of_terminal ho terminal, if_pos rfl] at ho'
      cases ho'
    · intro exchangeId hid
      rw [clientId?_acknowledge_of_terminal ho terminal, if_pos hid]

/-- An order that was just submitted. -/
def submitted (clientId : String) : InFlightOrder :=
  .create clientId "ETH-XLM" .buy .limit .one (some .one) ⟨0, false⟩

/-- An observation that names an exchange id. -/
def observation (clientId exchangeId : String) (state : OrderState) (sequence : Nat) :
    OrderUpdate :=
  ⟨clientId, some exchangeId, state, none, sequence, ⟨0, false⟩⟩

/-- Of two orders one gets an exchange id and is let go once it is filled.  An observation of the
other names the same id, and does not count. -/
def twoOrders : List Request :=
  [.track (submitted "c1"), .track { submitted "c2" with exchangeId := some "e2" },
    .apply (observation "c1" "e1" .open 1), .apply (observation "c2" "e1" .filled 2),
    .apply (observation "c1" "e1" .filled 3), .acknowledge "c1",
    .apply (observation "c2" "e2" .filled 4)]

/-- The order that is left is found by its own exchange id, and nothing by that of the other, before
it is let go and after that. -/
theorem index_twoOrders : (∀ x ∈ empty.turns twoOrders, x.isRefused = false) ∧
    Unambiguous ((empty.turns twoOrders).filterMap Turn.given?) ∧
    ((empty.run twoOrders).getByExchangeId? "e2").isSome = true ∧
    (empty.run twoOrders).clientId? "e1" ≠ some "c1" ∧
    ((empty.run twoOrders).acknowledge "c2").1.clientId? "e2" = none := by
  have hadmitted : ∀ x ∈ empty.turns twoOrders, x.isRefused = false := by decide
  have hunique : Unambiguous ((empty.turns twoOrders).filterMap Turn.given?) := by decide
  obtain ⟨hfound, hget, hgone⟩ := index_of_run twoOrders hadmitted hunique
  have ho : ∃ o, (empty.run twoOrders).get? "c2" = some o ∧ o.clientId = "c2" ∧
      o.exchangeId = some "e2" ∧ ((empty.run twoOrders).acknowledge "c2").2 = .ok o :=
    ⟨_, rfl, rfl, rfl, rfl⟩
  obtain ⟨o, ho, hown, hid, hok⟩ := ho
  refine ⟨hadmitted, hunique, ?_, ?_, (hgone "c2" o hok).2 "e2" hid⟩
  · rw [(hget "e2" o).mpr ⟨hown ▸ ho, hid⟩]
    rfl
  · rw [Ne, hfound]
    rintro ⟨o', ho', _⟩
    cases ho'

end OrderTracker

end SpotGateway
