import SpotGateway.Proofs.Session.Steps

/-!
# Requests that could be those of another endpoint

The id of an order is put behind the path of orders as it is, and the lists of orders stand there
too.  So a question about an order whose id is the name of a list is sent as the request for that
list, and is charged as a question about one order all the same.  No other two endpoints have the
same method and path.

* `Endpoint.Alike`, `Endpoint.listNamed?`, `Endpoint.PassesFor` — endpoints with the same request,
  and questions about an order that are sent as the request for a list;
* `Endpoint.received`, `Endpoint.received_request` — the endpoint that a request is read as;
* `Endpoint.alike_iff` — which endpoints are alike;
* `Pending.Sends`, `Session.sends_of_start` — what is sent and what is charged for it;
* `Session.charged_of_start`, `Session.charged_of_listName` — what is sent and charged for orders, and
  a question about an order that is sent as the request for a list.
-/

set_option autoImplicit false

namespace SpotGateway

open Exchange

namespace Endpoint

/-- The requests of the endpoints have the same method and the same path. -/
def Alike (e e' : Endpoint) : Prop :=
  e.request.method = e'.request.method ∧ e.request.path = e'.request.path

/-- The list of orders that goes by a name, behind the path of orders. -/
def listNamed? (name : String) : Option Endpoint :=
  if name = "all-orders" then some .allOrders
  else if name = "active-orders" then some .activeOrders
  else none

/-- A question about one order, whose id is the name of the list. -/
def PassesFor (e list : Endpoint) : Prop :=
  ∃ id, e = .orderStatus id ∧ listNamed? id = some list

theorem listNamed?_eq_some_iff {name : String} {list : Endpoint} : listNamed? name = some list ↔
    name = "all-orders" ∧ list = .allOrders ∨ name = "active-orders" ∧ list = .activeOrders := by
  unfold listNamed?
  split
  · rename_i hname
    simp [hname, eq_comm]
  split
  · rename_i hname
    simp [hname, eq_comm]
  · rename_i hall hactive
    simp [hall, hactive]

/-! ## Reading requests -/

/-- What stands in front of the id of an order. -/
def orderHead : String := Path.order ++ "/"

/-- What stands behind it. -/
def idIn (path : String) : String := .ofList (path.toList.drop orderHead.toList.length)

/-- The endpoints that are asked for by a path of their own and nothing else. -/
def fixed : List Endpoint :=
  [.ping, .serverTime, .exchangeInfo, .tickerPrice, .bookTicker, .depth, .account, .myTrades,
    .allOrders, .activeOrders, .rateLimits, .endpointLimits, .documentation]

/-- The endpoint that a request is read as; paths that are fixed come before the ids of orders. -/
def received (method : Http.Method) (path : String) : Endpoint :=
  match method with
  | .post => .placeOrder
  | .delete => .cancelOrder (idIn path)
  | _ => (fixed.find? fun e => e.path = path).getD (.orderStatus (idIn path))

variable {e e' list : Endpoint}

theorem idIn_append (id : String) : idIn (orderHead ++ id) = id := by
  rw [idIn, String.toList_append, List.drop_left, String.ofList_toList]

/-- Of the fixed paths only those of lists begin like that of an order. -/
theorem listNamed?_of_fixed :
    ∀ e ∈ fixed, orderHead.toList <+: e.path.toList → listNamed? (idIn e.path) = some e := by
  decide

theorem find?_fixed (id : String) :
    (fixed.find? fun e => e.path = orderHead ++ id) = listNamed? id := by
  cases hfound : fixed.find? fun e => e.path = orderHead ++ id with
  | some e =>
    have hpath : e.path = orderHead ++ id := by simpa using List.find?_some hfound
    have hhead : orderHead.toList <+: e.path.toList := by
      rw [hpath, String.toList_append]
      exact List.prefix_append _ _
    rw [← listNamed?_of_fixed e (List.mem_of_find?_eq_some hfound) hhead, hpath, idIn_append]
  | none =>
    rw [List.find?_eq_none] at hfound
    cases hlist : listNamed? id with
    | none => rfl
    | some list =>
      rcases listNamed?_eq_some_iff.mp hlist with ⟨rfl, rfl⟩ | ⟨rfl, rfl⟩
      · exact absurd (by decide) (hfound .allOrders (by decide))
      · exact absurd (by decide) (hfound .activeOrders (by decide))

/-- A request is read as that of its endpoint, unless this is a question about an order whose id is
the name of a list. -/
theorem received_request (e : Endpoint) : received e.request.method e.request.path = e ∨
    e.PassesFor (received e.request.method e.request.path) := by
  cases e with
  | cancelOrder id => exact Or.inl (congrArg cancelOrder (idIn_append id))
  | orderStatus id =>
    have hread : received (orderStatus id).request.method (orderStatus id).request.path =
        (listNamed? id).getD (.orderStatus id) := by
      change (fixed.find? fun e => e.path = orderHead ++ id).getD
        (.orderStatus (idIn (orderHead ++ id))) = _
      rw [find?_fixed, idIn_append]
    rw [hread]
    cases hlist : listNamed? id with
    | none => exact Or.inl rfl
    | some list => exact Or.inr ⟨id, rfl, hlist⟩
  | _ => exact Or.inl rfl

/-! ## Endpoints that are alike -/

theorem Alike.symm (h : e.Alike e') : e'.Alike e := ⟨h.1.symm, h.2.symm⟩

theorem PassesFor.alike (h : e.PassesFor list) : e.Alike list := by
  obtain ⟨id, rfl, hlist⟩ := h
  rcases listNamed?_eq_some_iff.mp hlist with ⟨rfl, rfl⟩ | ⟨rfl, rfl⟩ <;> exact ⟨rfl, by decide⟩

/-- It is charged as a question about one order, and not as one for a list. -/
theorem PassesFor.tier_ne (h : e.PassesFor list) :
    e.tier = orderByIdTier ∧ list.tier ≠ orderByIdTier := by
  obtain ⟨id, rfl, hlist⟩ := h
  refine ⟨rfl, ?_⟩
  rcases listNamed?_eq_some_iff.mp hlist with ⟨_, rfl⟩ | ⟨_, rfl⟩ <;> decide

/-- Two endpoints are alike only if they are the same or one of them passes for the other. -/
theorem alike_iff : e.Alike e' ↔ e = e' ∨ e.PassesFor e' ∨ e'.PassesFor e := by
  constructor
  · intro h
    have hread := received_request e
    have hread' := received_request e'
    rw [← h.1, ← h.2] at hread'
    generalize received e.request.method e.request.path = r at hread hread'
    rcases hread with rfl | hpasses
    · rcases hread' with rfl | hpasses'
      · exact Or.inl rfl
      · exact Or.inr (Or.inr hpasses')
    · rcases hread' with rfl | hpasses'
      · exact Or.inr (Or.inl hpasses)
      · -- both are questions about an order, so the ids are told by the paths
        obtain ⟨id, rfl, _⟩ := hpasses
        obtain ⟨id', rfl, _⟩ := hpasses'
        have hpaths : orderHead ++ id = orderHead ++ id' := h.2
        exact Or.inl (congrArg orderStatus ((String.append_right_inj orderHead).mp hpaths))
  · rintro (rfl | hpasses | hpasses)
    · exact ⟨rfl, rfl⟩
    · exact hpasses.alike
    · exact hpasses.alike.symm

end Endpoint

/-! ## What is sent and charged -/

/-- What is sent has the method and the path of the endpoint's request. -/
def Pending.Sends (p : Pending) (e : Endpoint) : Prop :=
  p.request.method = e.request.method ∧ p.request.path = e.request.path

theorem Limiter.tier_of_reserve {l l' : Limiter} {tier : String} {now : Timestamp} {r : Reservation}
    (h : l.reserve tier now = .ok (l', .ok r)) : r.tier = tier := by
  rcases reserve_cases h with ⟨_, _, hresult⟩ | ⟨g, _, ⟨_, _, _, hresult⟩ | ⟨_, _, hresult⟩⟩
  · cases hresult
  · cases hresult
  · cases hresult
    rfl

namespace Session

variable {s s' : Session} {now : Readings} {expired : Bool} {call : Call} {p : Pending}

/-- What is sent is the request of the errand's endpoint, and it is that endpoint which is charged. -/
theorem sends_of_start (h : s.start now expired call = .ok (s', .ok p)) :
    p.reservation.tier = p.errand.endpoint.tier ∧
      ∀ e : Endpoint, p.Sends e ↔ p.errand.endpoint.Alike e := by
  cases started_of_start h with
  | sent errand limiter reservation request tracker planned reserved requested intime tracked
      changed =>
    refine ⟨Limiter.tier_of_reserve reserved, fun e => ?_⟩
    obtain ⟨headers, hrequest⟩ := headers_requestOf requested
    have hbare : errand.request.method = errand.endpoint.request.method ∧
        errand.request.path = errand.endpoint.request.path := by
      cases errand <;> exact ⟨rfl, rfl⟩
    rw [Pending.Sends, Endpoint.Alike, hrequest, ← hbare.1, ← hbare.2]

/-- **What is sent for an order could be the request of another endpoint only if the id of the order
is the name of a list.**

* Two endpoints have the same method and path exactly if they are the same, or one of them is a
  question about an order whose id is the name of a list and the other is that list.  Then they are
  charged apart.
* A cancellation has the method and the path of no other endpoint, and a question about an order those
  of the list that goes by its id, if there is one, and of no other.  Both are charged as requests
  about one order, whatever the id. -/
theorem charged_of_start :
    (∀ e e' : Endpoint, e.Alike e' ↔ e = e' ∨ e.PassesFor e' ∨ e'.PassesFor e) ∧
    (∀ e list : Endpoint, e.PassesFor list →
      e.tier = orderByIdTier ∧ list.tier ≠ orderByIdTier) ∧
    ∀ (s s' : Session) (now : Readings) (expired : Bool) (call : Call) (p : Pending) (id : String),
      s.start now expired call = .ok (s', .ok p) →
      (call = .cancel id → p.reservation.tier = orderByIdTier ∧
        ∀ e, p.Sends e ↔ e = .cancelOrder id) ∧
      (call = .status id → p.reservation.tier = orderByIdTier ∧
        ∀ e, p.Sends e ↔ e = .orderStatus id ∨ Endpoint.listNamed? id = some e) := by
  refine ⟨fun e e' => Endpoint.alike_iff, fun e list => Endpoint.PassesFor.tier_ne, ?_⟩
  intro s s' now expired call p id hstart
  obtain ⟨hcharged, hsends⟩ := sends_of_start hstart
  have planned := plan_of_start hstart
  have hnoList : ∀ {e list : Endpoint}, e.PassesFor list → list ≠ .cancelOrder id ∧
      list ≠ .orderStatus id := by
    rintro e list ⟨_, _, hlist⟩
    rcases Endpoint.listNamed?_eq_some_iff.mp hlist with ⟨_, rfl⟩ | ⟨_, rfl⟩ <;> simp
  constructor
  · rintro rfl
    have herrand : p.errand = .cancel id := (Except.ok.inj (Except.ok.inj planned)).symm
    rw [herrand] at hcharged hsends
    refine ⟨hcharged, fun e => (hsends e).trans (Endpoint.alike_iff.trans ?_)⟩
    constructor
    · rintro (rfl | ⟨_, h, _⟩ | h)
      · rfl
      · cases h
      · exact absurd rfl (hnoList h).1
    · rintro rfl
      exact Or.inl rfl
  · rintro rfl
    have herrand : p.errand = .status id := (Except.ok.inj (Except.ok.inj planned)).symm
    rw [herrand] at hcharged hsends
    refine ⟨hcharged, fun e => (hsends e).trans (Endpoint.alike_iff.trans ?_)⟩
    constructor
    · rintro (rfl | ⟨_, h, hlist⟩ | h)
      · exact Or.inl rfl
      · cases h
        exact Or.inr hlist
      · exact absurd rfl (hnoList h).2
    · rintro (rfl | hlist)
      · exact Or.inl rfl
      · exact Or.inr (Or.inl ⟨id, rfl, hlist⟩)

/-- The same id, once to be asked about and once to be canceled. -/
theorem charged_asListName : ∃ s s₁ s₂ p p',
    Session.create .default ⟨"key", "secret", none⟩ = .ok s ∧
    s.start (.still ⟨0, false⟩) false (.status "active-orders") = .ok (s₁, .ok p) ∧
    s.start (.still ⟨0, false⟩) false (.cancel "active-orders") = .ok (s₂, .ok p') ∧
    (∀ e, p.Sends e ↔ e = .orderStatus "active-orders" ∨ e = .activeOrders) ∧
    (∀ e, p'.Sends e ↔ e = .cancelOrder "active-orders") ∧
    p.reservation.tier = orderByIdTier ∧ p'.reservation.tier = orderByIdTier := by
  obtain ⟨s, s₁, s₂, p, p', hs, hstart, hstart'⟩ : ∃ s s₁ s₂ p p',
      Session.create .default ⟨"key", "secret", none⟩ = .ok s ∧
      s.start (.still ⟨0, false⟩) false (.status "active-orders") = .ok (s₁, .ok p) ∧
      s.start (.still ⟨0, false⟩) false (.cancel "active-orders") = .ok (s₂, .ok p') :=
    ⟨_, _, _, _, _, rfl, rfl, rfl⟩
  obtain ⟨_, _, hcalls⟩ := charged_of_start
  obtain ⟨hcharged, hsends⟩ := (hcalls _ _ _ _ _ _ _ hstart).2 rfl
  obtain ⟨hcharged', hsends'⟩ := (hcalls _ _ _ _ _ _ _ hstart').1 rfl
  refine ⟨s, s₁, s₂, p, p', hs, hstart, hstart', fun e => ?_, hsends', hcharged, hcharged'⟩
  rw [hsends, Endpoint.listNamed?_eq_some_iff]
  simp

/-- The units of a tier that are taken. -/
def unitsTaken (s : Session) (tier : String) (now : Timestamp) : Option Nat := do
  let (_, usage) ← (s.limiter.usage tier now).toOption
  return (← usage.toOption).used

/-- A question about an order with the id `all-orders` is sent as the request for all orders.  The
tier of that list is not charged for it, but the one of single orders. -/
theorem charged_of_listName : ∃ s s₁ p,
    Session.create .default ⟨"key", "secret", none⟩ = .ok s ∧
    s.start (.still ⟨0, false⟩) false (.status "all-orders") = .ok (s₁, .ok p) ∧
    Endpoint.orderStatus "all-orders" ≠ .allOrders ∧
    (Endpoint.orderStatus "all-orders").request = Endpoint.allOrders.request ∧
    p.Sends .allOrders ∧ p.reservation.tier ≠ Endpoint.allOrders.tier ∧
    s₁.unitsTaken Endpoint.allOrders.tier ⟨0, false⟩ = some 0 ∧
    s₁.unitsTaken orderByIdTier ⟨0, false⟩ = some 1 := by
  refine ⟨_, _, _, rfl, rfl, by decide, rfl, ⟨rfl, rfl⟩, by decide, rfl, rfl⟩

end Session

end SpotGateway
