import SpotGateway.Proofs.Order.Newest

/-!
# The history of an order

Of the observations that arrive, those that count are the history of an order.  They come in the
order of their places, each of them is on record with all that it says, and the others leave no
trace.

* `InFlightOrder.counted` — the observations that count, in the order in which they arrive;
* `InFlightOrder.takeAll_eq_foldl_counted` — the record is what they make of it, one after another;
* `InFlightOrder.pairwise_counted`, `InFlightOrder.lastSequence_takeAll` — their places, and the
  last of them;
* `InFlightOrder.counted_of_terminal` — the history of an order ends with its end;
* `InFlightOrder.exchangeId_takeAll`, `InFlightOrder.exchangeId_of_mem_counted` — the exchange id
  is the one that they name;
* `InFlightOrder.history_of_create` — all of it, from the submission on.
-/

set_option autoImplicit false

namespace SpotGateway.InFlightOrder

variable {o : InFlightOrder} {u : OrderUpdate} {arrivals later : List OrderUpdate}

/-- The observations that count, of those that arrive. -/
def counted : InFlightOrder → List OrderUpdate → List OrderUpdate
  | _, [] => []
  | o, u :: rest =>
    let (after, outcome) := o.applyUpdate u
    if outcome.isApplied then u :: counted after rest else counted after rest

theorem takeAll_cons (o : InFlightOrder) (u : OrderUpdate) (rest : List OrderUpdate) :
    o.takeAll (u :: rest) = (o.applyUpdate u).1.takeAll rest := rfl

theorem takeAll_append (o : InFlightOrder) (arrivals later : List OrderUpdate) :
    o.takeAll (arrivals ++ later) = (o.takeAll arrivals).takeAll later := List.foldl_append

/-! ## Which observations count -/

/-- The first observation either counts, and the history goes on from there, or is passed over. -/
theorem counted_cons_cases (o : InFlightOrder) (u : OrderUpdate) (rest : List OrderUpdate) :
    (o.Before u.sequence ∧ o.isTerminal = false ∧ o.Agrees u ∧
        o.takeAll (u :: rest) = (o.advance u).takeAll rest ∧
        o.counted (u :: rest) = u :: (o.advance u).counted rest) ∨
      o.takeAll (u :: rest) = o.takeAll rest ∧ o.counted (u :: rest) = o.counted rest := by
  rw [takeAll_cons]
  rcases o.counts_or_unchanged u with ⟨before, ongoing, agrees, hcounts⟩ | ⟨unchanged, ignored⟩
  · refine Or.inl ⟨before, ongoing, agrees, ?_, ?_⟩
    · rw [hcounts]
    · simp [counted, hcounts, UpdateOutcome.isApplied]
  · refine Or.inr ⟨?_, ?_⟩
    · rw [unchanged]
    · simp [counted, unchanged, ignored]

theorem counted_append (o : InFlightOrder) (arrivals later : List OrderUpdate) :
    o.counted (arrivals ++ later) = o.counted arrivals ++ (o.takeAll arrivals).counted later := by
  induction arrivals generalizing o with
  | nil => rfl
  | cons u rest ih =>
    have hrest := ih (o.applyUpdate u).1
    rw [takeAll_cons, List.cons_append]
    simp only [counted, hrest]
    split <;> rfl

/-- The record is what the observations that count make of it, one after another. -/
theorem takeAll_eq_foldl_counted (o : InFlightOrder) (arrivals : List OrderUpdate) :
    o.takeAll arrivals = (o.counted arrivals).foldl advance o := by
  induction arrivals generalizing o with
  | nil => rfl
  | cons u rest ih =>
    rcases o.counted_cons_cases u rest with ⟨_, _, _, htake, hcounted⟩ | ⟨htake, hcounted⟩
    · rw [htake, hcounted, List.foldl_cons]
      exact ih (o.advance u)
    · rw [htake, hcounted]
      exact ih o

/-- An order that has come to an end has no further history. -/
theorem counted_of_terminal (terminal : o.isTerminal = true) (arrivals : List OrderUpdate) :
    o.counted arrivals = [] := by
  induction arrivals with
  | nil => rfl
  | cons u rest ih =>
    rcases o.counted_cons_cases u rest with ⟨_, ongoing, _⟩ | ⟨_, hcounted⟩
    · rw [terminal] at ongoing
      cases ongoing
    · rw [hcounted]
      exact ih

theorem sameOrder_takeAll (o : InFlightOrder) (arrivals : List OrderUpdate) :
    o.SameOrder (o.takeAll arrivals) := by
  induction arrivals generalizing o with
  | nil => exact SameOrder.refl o
  | cons u rest ih => exact (sameOrder_applyUpdate o u).trans (ih (o.applyUpdate u).1)

/-! ## Places -/

/-- What counts is newer than all that was on record. -/
theorem before_of_mem_counted (hu : u ∈ o.counted arrivals) : o.Before u.sequence := by
  induction arrivals generalizing o with
  | nil => cases hu
  | cons v rest ih =>
    rcases o.counted_cons_cases v rest with ⟨before, _, _, _, hcounted⟩ | ⟨_, hcounted⟩
    · rw [hcounted] at hu
      rcases List.mem_cons.mp hu with rfl | hu
      · exact before
      · have hv : v.sequence < u.sequence := ih hu v.sequence rfl
        exact fun last hlast => Nat.lt_trans (before last hlast) hv
    · rw [hcounted] at hu
      exact ih hu

theorem pairwise_counted (o : InFlightOrder) (arrivals : List OrderUpdate) :
    (o.counted arrivals).Pairwise fun u v => u.sequence < v.sequence := by
  induction arrivals generalizing o with
  | nil => exact List.Pairwise.nil
  | cons u rest ih =>
    rcases o.counted_cons_cases u rest with ⟨_, _, _, _, hcounted⟩ | ⟨_, hcounted⟩
    · rw [hcounted, List.pairwise_cons]
      refine ⟨?_, ih (o.advance u)⟩
      intro v hv
      exact before_of_mem_counted hv u.sequence rfl
    · rw [hcounted]
      exact ih o

/-- The place on record is that of the last observation that counts, or the former one. -/
theorem lastSequence_takeAll (o : InFlightOrder) (arrivals : List OrderUpdate) :
    (o.takeAll arrivals).lastSequence =
      ((o.counted arrivals).getLast?.map OrderUpdate.sequence).or o.lastSequence := by
  rw [takeAll_eq_foldl_counted]
  rcases List.eq_nil_or_concat (o.counted arrivals) with hnil | ⟨former, u, hlast⟩
  · rw [hnil]
    rfl
  · rw [hlast, List.concat_eq_append, List.foldl_append, List.getLast?_append]
    rfl

/-! ## Exchange ids -/

/-- Once an order has an exchange id, it keeps it. -/
theorem exchangeId_takeAll {exchangeId : String} (h : o.exchangeId = some exchangeId)
    (arrivals : List OrderUpdate) : (o.takeAll arrivals).exchangeId = some exchangeId := by
  induction arrivals generalizing o with
  | nil => exact h
  | cons u rest ih =>
    rcases o.counted_cons_cases u rest with ⟨_, _, _, htake, _⟩ | ⟨htake, _⟩
    · rw [htake]
      exact ih (exchangeId_advance_of_some h)
    · rw [htake]
      exact ih h

/-- The exchange id that an observation names goes on record if the observation counts. -/
theorem exchangeId_of_mem_counted (hu : u ∈ o.counted arrivals) {exchangeId : String}
    (hid : u.exchangeId = some exchangeId) :
    (o.takeAll arrivals).exchangeId = some exchangeId := by
  induction arrivals generalizing o with
  | nil => cases hu
  | cons v rest ih =>
    rcases o.counted_cons_cases v rest with ⟨_, _, agrees, htake, hcounted⟩ | ⟨htake, hcounted⟩
    · rw [hcounted] at hu
      rw [htake]
      rcases List.mem_cons.mp hu with rfl | hu
      · refine exchangeId_takeAll ?_ rest
        -- the id on record is the one that is named, or there is none yet
        cases hknown : o.exchangeId with
        | none => exact (exchangeId_advance_of_none hknown).trans hid
        | some known =>
          rw [exchangeId_advance_of_some hknown, agrees known exchangeId hknown hid]
      · exact ih hu
    · rw [hcounted] at hu
      rw [htake]
      exact ih hu

/-! ## From the submission on -/

/-- **The history of an order.**  Whatever observations arrive of an order that was submitted:

* those that count come in strictly increasing order of their places, and the place on record is
  that of the last of them;
* an observation that does not count leaves the whole record as it is;
* once the order has come to an end nothing counts any more;
* once it has an exchange id it keeps it, and all that counts, before and after, names that id or
  none;
* and it stays the order that was submitted. -/
theorem history_of_create (clientId pair : String) (side : Side) (kind : OrderKind)
    (amount : Decimal) (price : Option Decimal) (createdAt : Timestamp)
    (arrivals : List OrderUpdate) :
    let o := create clientId pair side kind amount price createdAt
    let o' := o.takeAll arrivals
    ((o.counted arrivals).map OrderUpdate.sequence).Pairwise (· < ·) ∧
    o'.lastSequence = ((o.counted arrivals).map OrderUpdate.sequence).getLast? ∧
    (∀ u, (o'.applyUpdate u).2.isApplied = false → o.takeAll (arrivals ++ [u]) = o') ∧
    (o'.isTerminal = true → ∀ later, o.counted (arrivals ++ later) = o.counted arrivals) ∧
    (∀ exchangeId, o'.exchangeId = some exchangeId → ∀ later,
      (o.takeAll (arrivals ++ later)).exchangeId = some exchangeId ∧
      ∀ u ∈ o.counted (arrivals ++ later), u.exchangeId = none ∨
        u.exchangeId = some exchangeId) ∧
    o.SameOrder o' := by
  intro o o'
  refine ⟨?_, ?_, ?_, ?_, ?_, sameOrder_takeAll o arrivals⟩
  · exact List.pairwise_map.mpr (pairwise_counted o arrivals)
  · have hfresh : o.lastSequence = none := rfl
    rw [lastSequence_takeAll, hfresh, Option.or_none, List.getLast?_map]
  · intro u hignored
    rw [takeAll_append]
    rcases o'.counts_or_unchanged u with ⟨_, _, _, hcounts⟩ | ⟨unchanged, _⟩
    · rw [hcounts] at hignored
      cases hignored
    · exact unchanged
  · intro hterminal later
    rw [counted_append, counted_of_terminal hterminal, List.append_nil]
  · intro exchangeId hid later
    have hkept : (o.takeAll (arrivals ++ later)).exchangeId = some exchangeId := by
      rw [takeAll_append]
      exact exchangeId_takeAll hid later
    refine ⟨hkept, ?_⟩
    intro u hu
    cases hnamed : u.exchangeId with
    | none => exact Or.inl rfl
    | some named => exact Or.inr ((exchangeId_of_mem_counted hu hnamed).symm.trans hkept)

end SpotGateway.InFlightOrder
