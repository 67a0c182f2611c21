import SpotGateway.Order.Tracker
import SpotGateway.Proofs.Keyed
import SpotGateway.Proofs.Order.Observation

/-!
# What the operations of a tracker do

Each operation either does one thing to the orders and the index or leaves them as they are.

* `OrderTracker.track_cases`, `apply_cases`, `acknowledge_cases` — all that an operation can do;
* `OrderTracker.get?_track`, `get?_apply`, `get?_acknowledge`, `acknowledge_eq_ok_iff` — the same
  as lookup and answers show it;
* `OrderTracker.clientId?_track`, `clientId?_advance`, `clientId?_acknowledge_of_terminal` — what
  becomes of the index.
-/

set_option autoImplicit false

namespace SpotGateway.OrderTracker

variable {t : OrderTracker} {o : InFlightOrder} {u : OrderUpdate} {clientId : String}

theorem get?_index (exchangeIds : Keyed String) (o : InFlightOrder) (exchangeId : String) :
    (index exchangeIds o).get? exchangeId =
      if o.exchangeId = some exchangeId then some o.clientId else exchangeIds.get? exchangeId := by
  unfold index
  cases o.exchangeId with
  | none => rfl
  | some known => simp only [Keyed.get?_set, Option.some.injEq, eq_comm]

/-! ## Tracking -/

/-- All that tracking can do: the order is filed under its client id, or there is one already. -/
theorem track_cases (t : OrderTracker) (o : InFlightOrder) :
    (t.get? o.clientId = none ∧ t.track o =
        ({ t with
            orders := t.orders.set o.clientId o
            exchangeIds := index t.exchangeIds o }, .ok ())) ∨
      ∃ known, t.get? o.clientId = some known ∧ t.track o =
        ({ t with exchangeIds := index t.exchangeIds o },
          .error (.invalidOrder (.alreadyTracked o.clientId))) := by
  unfold track Keyed.contains get?
  cases h : t.orders.get? o.clientId with
  | none => exact Or.inl ⟨rfl, rfl⟩
  | some known => exact Or.inr ⟨known, rfl, rfl⟩

/-- There is nothing against an order whose client id is not on record. -/
theorem track_of_vacant (h : t.get? o.clientId = none) : t.track o = ({ t with
    orders := t.orders.set o.clientId o
    exchangeIds := index t.exchangeIds o }, .ok ()) := by
  rcases track_cases t o with ⟨_, htrack⟩ | ⟨known, hknown, _⟩
  · exact htrack
  · rw [h] at hknown
    cases hknown

theorem get?_track (t : OrderTracker) (o : InFlightOrder) (clientId : String) :
    (t.track o).1.get? clientId =
      if clientId = o.clientId then some ((t.get? clientId).getD o) else t.get? clientId := by
  rcases track_cases t o with ⟨hvacant, htrack⟩ | ⟨known, hknown, htrack⟩
  · rw [htrack]
    simp only [get?, Keyed.get?_set]
    split
    · rename_i h
      rw [h, show t.orders.get? o.clientId = none from hvacant, Option.getD_none]
    · rfl
  · rw [htrack]
    split
    · rename_i h
      rw [h, hknown, Option.getD_some]
      exact hknown
    · rfl

/-- The index takes the exchange id of an order, be it tracked or refused. -/
theorem clientId?_track (t : OrderTracker) (o : InFlightOrder) (exchangeId : String) :
    (t.track o).1.clientId? exchangeId =
      if o.exchangeId = some exchangeId then some o.clientId else t.clientId? exchangeId := by
  rcases track_cases t o with ⟨_, htrack⟩ | ⟨_, _, htrack⟩ <;>
    rw [htrack] <;> exact get?_index t.exchangeIds o exchangeId

/-- An order whose tracking succeeds is there as it was given. -/
theorem get?_of_track (h : (t.track o).2 = .ok ()) : (t.track o).1.get? o.clientId = some o := by
  rcases track_cases t o with ⟨_, htrack⟩ | ⟨_, _, htrack⟩
  · rw [htrack]
    exact Keyed.get?_set_self _ _ _
  · rw [htrack] at h
    cases h

/-! ## Taking observations in -/

/-- The tracker after an observation of an order that counts. -/
def advance (t : OrderTracker) (o : InFlightOrder) (u : OrderUpdate) : OrderTracker :=
  { t with
    orders := t.orders.set u.clientId (o.advance u)
    exchangeIds := if o.exchangeId.isNone then index t.exchangeIds (o.advance u)
      else t.exchangeIds }

theorem apply_of_counts (ho : t.get? u.clientId = some o) (before : o.Before u.sequence)
    (ongoing : o.isTerminal = false) (agrees : o.Agrees u) :
    t.apply u = (t.advance o u, .ok (.applied o.state u.state)) := by
  unfold apply
  simp only [ho, InFlightOrder.applyUpdate_of_counts before ongoing agrees, advance,
    UpdateOutcome.isApplied, Bool.true_and]

theorem get?_advance (t : OrderTracker) (o : InFlightOrder) (u : OrderUpdate) :
    (t.advance o u).get? u.clientId = some (o.advance u) :=
  Keyed.get?_set_self _ _ _

theorem get?_advance_of_ne (h : clientId ≠ u.clientId) :
    (t.advance o u).get? clientId = t.get? clientId :=
  Keyed.get?_set_other t.orders _ h

/-- All that an observation can do: it counts for an order that is tracked, or nothing changes. -/
theorem apply_cases (t : OrderTracker) (u : OrderUpdate) :
    (∃ o, t.get? u.clientId = some o ∧ o.Before u.sequence ∧ o.isTerminal = false ∧ o.Agrees u ∧
        t.apply u = (t.advance o u, .ok (.applied o.state u.state))) ∨
      (t.apply u).1 = t ∧
        ∀ o, t.get? u.clientId = some o → (o.applyUpdate u).1 = o := by
  cases h : t.get? u.clientId with
  | none =>
    refine Or.inr ⟨?_, ?_⟩
    · unfold apply
      rw [h]
    · intro o ho
      cases ho
  | some o =>
    rcases o.counts_or_unchanged u with ⟨before, ongoing, agrees, _⟩ | ⟨unchanged, ignored⟩
    · exact Or.inl ⟨o, rfl, before, ongoing, agrees, apply_of_counts h before ongoing agrees⟩
    · refine Or.inr ⟨?_, ?_⟩
      · have hset : t.orders.set u.clientId o = t.orders := Keyed.set_of_get?_eq_some h
        simp [apply, h, unchanged, ignored, hset]
      · intro o' ho'
        cases ho'
        exact unchanged

theorem apply_of_ignored
    (h : ∀ previous current, (t.apply u).2 ≠ .ok (.applied previous current)) :
    (t.apply u).1 = t := by
  rcases apply_cases t u with ⟨o, _, _, _, _, happly⟩ | ⟨hsame, _⟩
  · exact absurd (congrArg Prod.snd happly) (h o.state u.state)
  · exact hsame

theorem get?_apply (t : OrderTracker) (u : OrderUpdate) (clientId : String) :
    (t.apply u).1.get? clientId = if clientId = u.clientId
      then (t.get? clientId).map fun o => (o.applyUpdate u).1 else t.get? clientId := by
  rcases apply_cases t u with ⟨o, ho, before, ongoing, agrees, happly⟩ | ⟨hsame, hrecord⟩
  · have hcounted := InFlightOrder.applyUpdate_of_counts before ongoing agrees
    rw [happly]
    simp only [advance, get?, Keyed.get?_set]
    split
    · rename_i h
      rw [h, show t.orders.get? u.clientId = some o from ho, Option.map_some, hcounted]
    · rfl
  · rw [hsame]
    split
    · rename_i h
      rw [h]
      cases ho : t.get? u.clientId with
      | none => rfl
      | some o => rw [Option.map_some, hrecord o ho]
    · rfl

/-- Observations put no order on record. -/
theorem get?_apply_of_vacant (h : t.get? clientId = none) (u : OrderUpdate) :
    (t.apply u).1.get? clientId = none := by
  rw [get?_apply, h, Option.map_none, ite_self]

/-- The first exchange id of an order goes into the index, and no other does. -/
theorem clientId?_advance (t : OrderTracker) (o : InFlightOrder) (u : OrderUpdate)
    (exchangeId : String) : (t.advance o u).clientId? exchangeId =
      if o.exchangeId = none ∧ u.exchangeId = some exchangeId then some o.clientId
      else t.clientId? exchangeId := by
  simp only [clientId?, advance]
  cases hid : o.exchangeId with
  | some known => simp
  | none =>
    have hadvance := InFlightOrder.exchangeId_advance_of_none (u := u) hid
    have hown : (o.advance u).clientId = o.clientId := rfl
    simp only [Option.isNone_none, if_true, get?_index, hadvance, hown, true_and]

/-- Observations put no exchange id into the index but the one that they report. -/
theorem clientId?_apply_of_ne {exchangeId : String} (h : u.exchangeId ≠ some exchangeId) :
    (t.apply u).1.clientId? exchangeId = t.clientId? exchangeId := by
  rcases apply_cases t u with ⟨o, _, _, _, _, happly⟩ | ⟨hsame, _⟩
  · rw [happly, clientId?_advance, if_neg fun hfirst => h hfirst.2]
  · rw [hsame]

/-! ## Letting go -/

/-- The index without the exchange id of an order, if it has one. -/
def unindex (exchangeIds : Keyed String) (o : InFlightOrder) : Keyed String :=
  match o.exchangeId with
  | some exchangeId => exchangeIds.erase exchangeId
  | none => exchangeIds

theorem get?_unindex (exchangeIds : Keyed String) (o : InFlightOrder) (exchangeId : String) :
    (unindex exchangeIds o).get? exchangeId =
      if o.exchangeId = some exchangeId then none else exchangeIds.get? exchangeId := by
  unfold unindex
  cases o.exchangeId with
  | none => rfl
  | some known => simp only [Keyed.get?_erase, Option.some.injEq, eq_comm]

/-- All that an acknowledgement can do: the order that has come to an end is let go, or nothing
changes. -/
theorem acknowledge_cases (t : OrderTracker) (clientId : String) :
    (∃ o, t.get? clientId = some o ∧ o.isTerminal = true ∧ t.acknowledge clientId =
        ({ t with
            orders := t.orders.erase clientId
            exchangeIds := unindex t.exchangeIds o }, .ok o)) ∨
      (∀ o, t.get? clientId = some o → o.isTerminal = false) ∧
        ∃ error, t.acknowledge clientId = (t, .error error) := by
  unfold acknowledge
  cases h : t.get? clientId with
  | none =>
    refine Or.inr ⟨?_, _, rfl⟩
    intro o ho
    cases ho
  | some o =>
    cases hterminal : o.isTerminal with
    | true =>
      refine Or.inl ⟨o, rfl, hterminal, ?_⟩
      cases hid : o.exchangeId <;> simp [hterminal, hid, unindex]
    | false =>
      refine Or.inr ⟨?_, _, by simp [hterminal]; rfl⟩
      intro o' ho'
      cases ho'
      exact hterminal

theorem get?_acknowledge_of_terminal (ho : t.get? clientId = some o)
    (terminal : o.isTerminal = true) (other : String) :
    (t.acknowledge clientId).1.get? other = if other = clientId then none else t.get? other := by
  rcases acknowledge_cases t clientId with ⟨_, _, _, hack⟩ | ⟨hongoing, _⟩
  · rw [hack]
    exact Keyed.get?_erase t.orders clientId other
  · rw [hongoing o ho] at terminal
    cases terminal

/-- The index loses the exchange id of an order that is let go. -/
theorem clientId?_acknowledge_of_terminal (ho : t.get? clientId = some o)
    (terminal : o.isTerminal = true) (exchangeId : String) :
    (t.acknowledge clientId).1.clientId? exchangeId =
      if o.exchangeId = some exchangeId then none else t.clientId? exchangeId := by
  rcases acknowledge_cases t clientId with ⟨o', ho', _, hack⟩ | ⟨hongoing, _⟩
  · rw [ho, Option.some.injEq] at ho'
    rw [hack, ho']
    exact get?_unindex t.exchangeIds o' exchangeId
  · rw [hongoing o ho] at terminal
    cases terminal

/-- What is there after an acknowledgement was there before, and is as it was. -/
theorem get?_of_get?_acknowledge {other : String}
    (h : (t.acknowledge clientId).1.get? other = some o) : t.get? other = some o := by
  rcases acknowledge_cases t clientId with ⟨_, ho', terminal, _⟩ | ⟨_, error, hack⟩
  · rw [get?_acknowledge_of_terminal ho' terminal] at h
    split at h
    · cases h
    · exact h
  · rw [hack] at h
    exact h

/-- Orders of other client ids stay, and so does an order that has not come to an end. -/
theorem get?_acknowledge {other : String} (h : t.get? other = some o)
    (hkeep : other ≠ clientId ∨ o.isTerminal = false) :
    (t.acknowledge clientId).1.get? other = some o := by
  rcases acknowledge_cases t clientId with ⟨o', ho', terminal, _⟩ | ⟨_, error, hack⟩
  · rw [get?_acknowledge_of_terminal ho' terminal]
    split
    · rename_i heq
      rw [heq, ho', Option.some.injEq] at h
      rcases hkeep with hne | hongoing
      · exact absurd heq hne
      · rw [← h, terminal] at hongoing
        cases hongoing
    · exact h
  · rw [hack]
    exact h

/-- Exactly the orders that have come to an end are let go, and answered as they are on record. -/
theorem acknowledge_eq_ok_iff :
    (t.acknowledge clientId).2 = .ok o ↔ t.get? clientId = some o ∧ o.isTerminal = true := by
  rcases acknowledge_cases t clientId with ⟨o', ho', hterminal, hack⟩ | ⟨hongoing, error, hack⟩
  · rw [hack, ho']
    constructor
    · intro h
      cases h
      exact ⟨rfl, hterminal⟩
    · rintro ⟨h, _⟩
      cases h
      rfl
  · rw [hack]
    constructor
    · intro h
      cases h
    · rintro ⟨ho, hterminal⟩
      rw [hongoing o ho] at hterminal
      cases hterminal

end SpotGateway.OrderTracker
