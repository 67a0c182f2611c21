import SpotGateway.Proofs.Order.Tracking

/-!
# The life of an order in a tracker

An order that is tracked stays until it has come to an end and is acknowledged, and from its end on
its record is the same.

* `OrderTracker.Request`, `OrderTracker.handle`, `OrderTracker.run` — requests to a tracker, one
  after another;
* `OrderTracker.Turn`, `OrderTracker.turns` — what each request of a run came upon;
* `OrderTracker.Filed`, `Filed.of_run` — orders are filed once, under their client ids;
* `OrderTracker.size_of_run` — orders that came less orders that went are there;
* `OrderTracker.get?_of_run` — what becomes of the record of an order that is not let go;
* `OrderTracker.lifecycle_of_run` — what holds after every run.
-/

set_option autoImplicit false

namespace SpotGateway.OrderTracker

/-- What a tracker can be asked to do. -/
inductive Request where
  | track (o : InFlightOrder)
  | apply (u : OrderUpdate)
  | acknowledge (clientId : String)
  deriving DecidableEq, Repr

/-- A request, and the tracker that it came upon. -/
structure Turn where
  tracker : OrderTracker
  request : Request

/-- The client id of an order that is tracked from now on. -/
def Turn.admitted? (x : Turn) : Option String :=
  match x.request with
  | .track o => if (x.tracker.track o).2.isOk then some o.clientId else none
  | _ => none

/-- The client id of an order that is let go. -/
def Turn.dismissed? (x : Turn) : Option String :=
  match x.request with
  | .acknowledge clientId =>
    if (x.tracker.acknowledge clientId).2.isOk then some clientId else none
  | _ => none

variable {t : OrderTracker} {o : InFlightOrder} {clientId : String}

/-- One request. -/
def handle (t : OrderTracker) : Request → OrderTracker
  | .track o => (t.track o).1
  | .apply u => (t.apply u).1
  | .acknowledge clientId => (t.acknowledge clientId).1

/-- One request after another. -/
def run (t : OrderTracker) (requests : List Request) : OrderTracker := requests.foldl handle t

/-- What the requests of a run come upon. -/
def turns : OrderTracker → List Request → List Turn
  | _, [] => []
  | t, r :: rest => ⟨t, r⟩ :: turns (t.handle r) rest

/-- No request of the run lets the order of the client id go. -/
def Retains (t : OrderTracker) (clientId : String) (requests : List Request) : Prop :=
  ∀ x ∈ t.turns requests, x.dismissed? ≠ some clientId

/-! ## Every order is filed once -/

/-- Every order is filed once, under its client id. -/
structure Filed (t : OrderTracker) : Prop where
  apart : t.orders.Apart
  own : ∀ clientId o, t.get? clientId = some o → o.clientId = clientId

theorem Filed.empty : Filed empty := ⟨Keyed.apart_nil, fun clientId o h => by cases h⟩

/-- An order under its own client id is filed like the others. -/
theorem Filed.put (h : t.Filed) (hown : o.clientId = clientId) :
    Filed { t with orders := t.orders.set clientId o } := by
  refine ⟨h.apart.set _ _, ?_⟩
  intro other o' ho'
  simp only [get?, Keyed.get?_set] at ho'
  split at ho'
  · rename_i heq
    cases ho'
    exact hown.trans heq.symm
  · exact h.own other o' ho'

/-- The index has no say in how orders are filed. -/
theorem Filed.reindex (h : t.Filed) (exchangeIds : Keyed String) : Filed { t with exchangeIds } :=
  ⟨h.apart, h.own⟩

theorem Filed.track (h : t.Filed) (o : InFlightOrder) : (t.track o).1.Filed := by
  rcases track_cases t o with ⟨_, htrack⟩ | ⟨_, _, htrack⟩
  · rw [htrack]
    exact (h.put rfl).reindex _
  · rw [htrack]
    exact h.reindex _

theorem Filed.apply (h : t.Filed) (u : OrderUpdate) : (t.apply u).1.Filed := by
  rcases apply_cases t u with ⟨o, ho, _, _, _, happly⟩ | ⟨hsame, _⟩
  · have hown : (o.advance u).clientId = u.clientId := h.own u.clientId o ho
    rw [happly]
    exact (h.put hown).reindex _
  · rw [hsame]
    exact h

theorem Filed.acknowledge (h : t.Filed) (clientId : String) : (t.acknowledge clientId).1.Filed := by
  rcases acknowledge_cases t clientId with ⟨o, _, _, hack⟩ | ⟨_, error, hack⟩
  · rw [hack]
    refine ⟨h.apart.erase _, ?_⟩
    intro other o' ho'
    simp only [get?, Keyed.get?_erase] at ho'
    split at ho'
    · cases ho'
    · exact h.own other o' ho'
  · rw [hack]
    exact h

theorem Filed.handle (h : t.Filed) (r : Request) : (t.handle r).Filed := by
  cases r with
  | track o => exact h.track o
  | apply u => exact h.apply u
  | acknowledge clientId => exact h.acknowledge clientId

theorem Filed.of_run (h : t.Filed) (requests : List Request) : (t.run requests).Filed := by
  induction requests generalizing t with
  | nil => exact h
  | cons r rest ih => exact ih (h.handle r)

theorem Filed.mem_values_iff (h : t.Filed) :
    o ∈ t.orders.values ↔ t.get? o.clientId = some o := by
  rw [h.apart.mem_values_iff]
  constructor
  · rintro ⟨clientId, ho⟩
    rw [h.own clientId o ho]
    exact ho
  · exact fun ho => ⟨_, ho⟩

/-- The orders by their client ids, one after another, are the keys. -/
theorem Filed.map_clientId (h : t.Filed) :
    t.orders.values.map InFlightOrder.clientId = t.orders.keys := by
  simp only [Keyed.values, Keyed.keys, List.map_map]
  refine List.map_congr_left fun e he => ?_
  obtain ⟨clientId, o⟩ := e
  exact h.own clientId o (h.apart.get?_eq_some_iff.mpr he)

/-- Orders that have come to an end and orders that have not are all the orders, each once. -/
theorem perm_values (t : OrderTracker) : (t.active ++ t.terminal).Perm t.orders.values := by
  have hsplit := List.filter_append_perm (fun o : InFlightOrder => !o.isTerminal) t.orders.values
  simp only [Bool.not_not] at hsplit
  exact hsplit

/-! ## How many orders there are -/

/-- A request changes the number of orders as its answer says. -/
theorem Filed.size_handle (h : t.Filed) (r : Request) :
    (t.handle r).size + (if (Turn.dismissed? ⟨t, r⟩).isSome then 1 else 0) =
      t.size + (if (Turn.admitted? ⟨t, r⟩).isSome then 1 else 0) := by
  cases r with
  | track o =>
    rcases track_cases t o with ⟨hvacant, htrack⟩ | ⟨known, _, htrack⟩
    · have hlength : (t.orders.set o.clientId o).length = t.orders.length + 1 :=
        Keyed.length_set_of_none hvacant
      simp [OrderTracker.handle, Turn.dismissed?, Turn.admitted?, size, htrack, Except.isOk,
        Except.toBool, hlength]
    · simp [OrderTracker.handle, Turn.dismissed?, Turn.admitted?, size, htrack, Except.isOk,
        Except.toBool]
  | apply u =>
    rcases apply_cases t u with ⟨o, ho, _, _, _, happly⟩ | ⟨hsame, _⟩
    · have hlength : (t.advance o u).orders.length = t.orders.length :=
        Keyed.length_set_of_some ho
      simp [OrderTracker.handle, Turn.dismissed?, Turn.admitted?, size, happly, hlength]
    · simp [OrderTracker.handle, Turn.dismissed?, Turn.admitted?, size, hsame]
  | acknowledge clientId =>
    rcases acknowledge_cases t clientId with ⟨o, ho, _, hack⟩ | ⟨_, error, hack⟩
    · have hlength : (t.orders.erase clientId).length + 1 = t.orders.length :=
        h.apart.length_erase ho
      simp [OrderTracker.handle, Turn.dismissed?, Turn.admitted?, size, hack, Except.isOk,
        Except.toBool, hlength]
    · simp [OrderTracker.handle, Turn.dismissed?, Turn.admitted?, size, hack, Except.isOk,
        Except.toBool]

theorem Filed.size_of_run (h : t.Filed) (requests : List Request) :
    (t.run requests).size + (t.turns requests).countP (·.dismissed?.isSome) =
      t.size + (t.turns requests).countP (·.admitted?.isSome) := by
  induction requests generalizing t with
  | nil => rfl
  | cons r rest ih =>
    have hrest := ih (h.handle r)
    have hstep := h.size_handle r
    have hrun : t.run (r :: rest) = (t.handle r).run rest := rfl
    rw [hrun]
    simp only [turns, List.countP_cons]
    omega

/-! ## What becomes of an order -/

/-- A request that does not let an order go keeps it, and keeps its record once it has come to an
end. -/
theorem get?_handle (h : t.get? clientId = some o) {r : Request}
    (hkeep : Turn.dismissed? ⟨t, r⟩ ≠ some clientId) :
    ∃ o', (t.handle r).get? clientId = some o' ∧ o.SameOrder o' ∧
      (o.isTerminal = true → o' = o) := by
  cases r with
  | track o₁ =>
    refine ⟨o, ?_, InFlightOrder.SameOrder.refl o, fun _ => rfl⟩
    simp only [OrderTracker.handle, get?_track, h]
    split <;> rfl
  | apply u =>
    simp only [OrderTracker.handle, get?_apply, h, Option.map_some]
    split
    · exact ⟨_, rfl, InFlightOrder.sameOrder_applyUpdate o u, InFlightOrder.applyUpdate_of_terminal⟩
    · exact ⟨o, rfl, InFlightOrder.SameOrder.refl o, fun _ => rfl⟩
  | acknowledge other =>
    refine ⟨o, get?_acknowledge h ?_, InFlightOrder.SameOrder.refl o, fun _ => rfl⟩
    by_cases heq : clientId = other
    · right
      cases hterminal : o.isTerminal with
      | false => rfl
      | true =>
        have hack := acknowledge_eq_ok_iff.mpr ⟨heq ▸ h, hterminal⟩
        exact absurd (by simp [Turn.dismissed?, hack, heq, Except.isOk, Except.toBool]) hkeep
    · exact Or.inl heq

theorem get?_of_run (h : t.get? clientId = some o) {requests : List Request}
    (hkeep : t.Retains clientId requests) :
    ∃ o', (t.run requests).get? clientId = some o' ∧ o.SameOrder o' ∧
      (o.isTerminal = true → o' = o) := by
  induction requests generalizing t o with
  | nil => exact ⟨o, h, InFlightOrder.SameOrder.refl o, fun _ => rfl⟩
  | cons r rest ih =>
    obtain ⟨o₁, ho₁, hsame₁, hfinal₁⟩ := get?_handle h (hkeep ⟨t, r⟩ List.mem_cons_self)
    obtain ⟨o', ho', hsame, hfinal⟩ :=
      ih ho₁ fun x hx => hkeep x (List.mem_cons_of_mem _ hx)
    refine ⟨o', ho', hsame₁.trans hsame, fun hterminal => ?_⟩
    have heq := hfinal₁ hterminal
    exact (hfinal (heq ▸ hterminal)).trans heq

/-- **Orders come and go as they should.**  After every run from an empty tracker, with any orders
and observations:

* as many orders are there as were tracked less those that were let go;
* the orders that have come to an end and those that have not are all the orders, each once;
* acknowledging succeeds exactly for an order that has come to an end, and answers its record;
* an order that is tracked is there, as the same order, after any further requests that do not let
  it go;
* and from when it has come to an end its record is the same, and is what acknowledging answers. -/
theorem lifecycle_of_run (requests : List Request) :
    ((empty.run requests).size + (empty.turns requests).countP (·.dismissed?.isSome) =
        (empty.turns requests).countP (·.admitted?.isSome)) ∧
    (((empty.run requests).active ++ (empty.run requests).terminal).map
        InFlightOrder.clientId).Nodup ∧
    (∀ o, o ∈ (empty.run requests).active ↔
      (empty.run requests).get? o.clientId = some o ∧ o.isTerminal = false) ∧
    (∀ o, o ∈ (empty.run requests).terminal ↔
      (empty.run requests).get? o.clientId = some o ∧ o.isTerminal = true) ∧
    (∀ clientId o, ((empty.run requests).acknowledge clientId).2 = .ok o ↔
      (empty.run requests).get? clientId = some o ∧ o.isTerminal = true) ∧
    (∀ o later, ((empty.run requests).track o).2 = .ok () →
      ((empty.run requests).track o).1.Retains o.clientId later →
      ∃ o', (empty.run (requests ++ .track o :: later)).get? o.clientId = some o' ∧
        o.SameOrder o') ∧
    ∀ clientId o later, (empty.run requests).get? clientId = some o →
      (empty.run requests).Retains clientId later →
      o.clientId = clientId ∧
      (∃ o', (empty.run (requests ++ later)).get? clientId = some o' ∧ o.SameOrder o') ∧
      (o.isTerminal = true →
        (empty.run (requests ++ later)).get? clientId = some o ∧
        ((empty.run (requests ++ later)).acknowledge clientId).2 = .ok o) := by
  have hfiled := Filed.empty.of_run requests
  have hsize := Filed.empty.size_of_run requests
  have hperm := perm_values (empty.run requests)
  have hrun : ∀ later, empty.run (requests ++ later) = (empty.run requests).run later :=
    fun later => List.foldl_append
  refine ⟨hsize.trans (Nat.zero_add _), ?_, ?_, ?_, ?_, ?_, ?_⟩
  · rw [(hperm.map _).nodup_iff, hfiled.map_clientId]
    exact hfiled.apart
  · intro o
    simp only [active, List.mem_filter, hfiled.mem_values_iff, Bool.not_eq_true']
  · intro o
    simp only [terminal, List.mem_filter, hfiled.mem_values_iff]
  · intro clientId o
    exact acknowledge_eq_ok_iff
  · intro o later htrack hkeep
    obtain ⟨o', ho', hsame, _⟩ := get?_of_run (get?_of_track htrack) hkeep
    exact ⟨o', by rw [hrun]; exact ho', hsame⟩
  · intro clientId o later ho hkeep
    obtain ⟨o', ho', hsame, hfinal⟩ := get?_of_run ho hkeep
    rw [hrun]
    refine ⟨hfiled.own clientId o ho, ⟨o', ho', hsame⟩, fun hterminal => ?_⟩
    have heq := hfinal hterminal
    rw [heq] at ho'
    exact ⟨ho', acknowledge_eq_ok_iff.mpr ⟨ho', hterminal⟩⟩

end SpotGateway.OrderTracker
