import SpotGateway.Proofs.Order.Newest

/-!
# The phases of an order

An order goes from new over submitted and working to terminal.  The newest observation wins also
over the phase: one step leads back, when an order that rests on the book is observed as pending.

* `InFlightOrder.rank_phase`, `InFlightOrder.rank_advance` — how far along an order is;
* `InFlightOrder.Recalls` — the observation takes an order back from the book;
* `InFlightOrder.rank_applyUpdate_lt_iff` — only such observations lead back;
* `InFlightOrder.phase_of_recalls`, `InFlightOrder.phase_applyUpdate_of_recalls` — from where to
  where they lead;
* `InFlightOrder.records` — the record before observations and after each of them;
* `InFlightOrder.forward_iff` — whether the phases of an order only move forward;
* `InFlightOrder.backward_of_pending` — an order whose phases do not.
-/

set_option autoImplicit false

namespace SpotGateway

theorem OrderState.eq_pendingCreate_iff (s : OrderState) :
    s = .pendingCreate ↔ s.isTerminal = false ∧ s.isWorking = false := by
  cases s <;> decide

namespace InFlightOrder

variable {o : InFlightOrder} {u : OrderUpdate} {arrivals : List OrderUpdate}

/-! ## One observation -/

theorem rank_phase (o : InFlightOrder) : o.phase.rank =
    if o.state.isTerminal then 3 else if o.state.isWorking then 2
    else if o.exchangeId.isSome then 1 else 0 := by
  unfold phase
  split
  · rfl
  · split
    · rfl
    · split <;> rfl

/-- An observation that counts settles the phase, but for the exchange id of an order that is
pending. -/
theorem rank_advance (o : InFlightOrder) (u : OrderUpdate) : (o.advance u).phase.rank =
    if u.state.isTerminal then 3 else if u.state.isWorking then 2
    else if o.exchangeId.isSome || u.exchangeId.isSome then 1 else 0 := by
  have hsome : (o.advance u).exchangeId.isSome = (o.exchangeId.isSome || u.exchangeId.isSome) := by
    cases hid : o.exchangeId with
    | none => rw [exchangeId_advance_of_none hid, Option.isSome_none, Bool.false_or]
    | some known => rw [exchangeId_advance_of_some hid, Option.isSome_some, Bool.true_or]
  rw [rank_phase, hsome]
  rfl

/-- The observation counts, and takes an order that rests on the book for pending. -/
def Recalls (o : InFlightOrder) (u : OrderUpdate) : Prop :=
  o.state.isWorking = true ∧ u.state = .pendingCreate ∧ (o.applyUpdate u).2.isApplied = true

instance (o : InFlightOrder) (u : OrderUpdate) : Decidable (o.Recalls u) :=
  inferInstanceAs (Decidable (_ ∧ _ ∧ _))

/-- The phase goes back exactly when an order that rests on the book is taken for pending. -/
theorem rank_applyUpdate_lt_iff (o : InFlightOrder) (u : OrderUpdate) :
    (o.applyUpdate u).1.phase.rank < o.phase.rank ↔ o.Recalls u := by
  unfold Recalls
  rcases o.counts_or_unchanged u with ⟨_, ongoing, _, hcounts⟩ | ⟨unchanged, ignored⟩
  · have hongoing : o.state.isTerminal = false := ongoing
    rw [hcounts, rank_advance, rank_phase, OrderState.eq_pendingCreate_iff]
    simp only [hongoing, UpdateOutcome.isApplied, Bool.false_eq_true, if_false, and_true]
    cases hworking : o.state.isWorking with
    | true =>
      -- on the book: only a pending order is less far along
      cases u.state.isTerminal <;> cases u.state.isWorking <;>
        cases o.exchangeId.isSome || u.exchangeId.isSome <;> simp
    | false =>
      -- not on the book: at most the exchange id counts, and it is kept
      cases u.state.isTerminal <;> cases u.state.isWorking <;>
        cases o.exchangeId.isSome <;> cases u.exchangeId.isSome <;> simp
  · rw [unchanged, ignored]
    simp

theorem phase_of_recalls (h : o.Recalls u) : o.phase = .working := by
  have hongoing : o.state.isTerminal = false := by
    cases hterminal : o.state.isTerminal with
    | false => rfl
    | true =>
      have hidle := OrderState.isWorking_of_isTerminal hterminal
      rw [h.1] at hidle
      cases hidle
  simp [phase, hongoing, h.1]

/-- An order that is taken back is submitted if it has an exchange id, and new otherwise. -/
theorem phase_applyUpdate_of_recalls (h : o.Recalls u) : (o.applyUpdate u).1.phase =
    if o.exchangeId.isSome || u.exchangeId.isSome then .submitted else .new := by
  obtain ⟨_, hpending, happlied⟩ := h
  rcases o.counts_or_unchanged u with ⟨_, _, _, hcounts⟩ | ⟨_, ignored⟩
  · rw [hcounts]
    cases hid : o.exchangeId <;> simp [phase, advance, hpending, hid, OrderState.isTerminal,
      OrderState.isWorking]
  · rw [ignored] at happlied
    cases happlied

example : onBook.Recalls (sighting none .pendingCreate 2) ∧
    (onBook.applyUpdate (sighting none .pendingCreate 2)).1.phase = .submitted := by
  decide

/-! ## One observation after another -/

/-- The record before observations, and after each of them. -/
def records : InFlightOrder → List OrderUpdate → List InFlightOrder
  | o, [] => [o]
  | o, u :: rest => o :: records (o.applyUpdate u).1 rest

theorem isChain_records_iff (R : InFlightOrder → InFlightOrder → Prop) (o : InFlightOrder)
    (arrivals : List OrderUpdate) : (o.records arrivals).IsChain R ↔
      ∀ past u later, arrivals = past ++ u :: later →
        R (o.takeAll past) ((o.takeAll past).applyUpdate u).1 := by
  induction arrivals generalizing o with
  | nil => simp [records]
  | cons v rest ih =>
    have hhead : ∃ tail, (o.applyUpdate v).1.records rest = (o.applyUpdate v).1 :: tail := by
      cases rest with
      | nil => exact ⟨_, rfl⟩
      | cons w rest => exact ⟨_, rfl⟩
    obtain ⟨tail, htail⟩ := hhead
    have hrest := ih (o.applyUpdate v).1
    rw [htail] at hrest
    rw [records, htail, List.isChain_cons_cons, hrest]
    constructor
    · rintro ⟨hfirst, hlater⟩ past u later heq
      cases past with
      | nil =>
        cases heq
        exact hfirst
      | cons w past =>
        cases heq
        exact hlater past u later rfl
    · intro h
      exact ⟨h [] v rest rfl, fun past u later heq => h (v :: past) u later (by rw [heq]; rfl)⟩

/-- **When the phases of an order only move forward.**  They do so exactly if no observation that
counts takes the order for pending while it rests on the book.  An observation that does so leads
back, to submitted if there is an exchange id and to new otherwise; every other observation leaves
the phase or moves it forward. -/
theorem forward_iff (o : InFlightOrder) (arrivals : List OrderUpdate) :
    ((o.records arrivals).IsChain (fun before after => before.phase.rank ≤ after.phase.rank) ↔
      ∀ past u later, arrivals = past ++ u :: later → ¬ (o.takeAll past).Recalls u) ∧
    ∀ u, let o' := o.takeAll arrivals
      let after := (o'.applyUpdate u).1
      (o'.Recalls u → o'.phase = .working ∧ after.phase =
        if o'.exchangeId.isSome || u.exchangeId.isSome then .submitted else .new) ∧
      (¬ o'.Recalls u → o'.phase.rank ≤ after.phase.rank) := by
  refine ⟨?_, ?_⟩
  · rw [isChain_records_iff]
    refine forall_congr' fun past => forall_congr' fun u => forall_congr' fun later => ?_
    rw [← rank_applyUpdate_lt_iff, Nat.not_lt]
  · intro u o' after
    refine ⟨?_, ?_⟩
    · intro h
      exact ⟨phase_of_recalls h, phase_applyUpdate_of_recalls h⟩
    · rw [← rank_applyUpdate_lt_iff]
      exact Nat.le_of_not_lt

/-- An order is observed on the book, and then as pending. -/
def pendingAgain : List OrderUpdate :=
  [sighting (some "e1") .open 1, sighting (some "e1") .pendingCreate 2]

/-- The order is new, rests on the book, and is submitted after that. -/
theorem backward_of_pending :
    let o := create "id" "ETH-XLM" .buy .limit .one (some .one) ⟨0, false⟩
    (o.records pendingAgain).map phase = [.new, .working, .submitted] ∧
    ¬ (o.records pendingAgain).IsChain fun before after =>
      before.phase.rank ≤ after.phase.rank := by
  decide

end InFlightOrder

end SpotGateway
