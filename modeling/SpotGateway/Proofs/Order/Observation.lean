import SpotGateway.Order.InFlight

/-!
# What observations do to an order

An observation either counts, and then all that it says is on record, or changes nothing at all.

* `InFlightOrder.Before`, `InFlightOrder.Agrees` — what an observation has to meet;
* `InFlightOrder.counts_or_unchanged` — all that an observation can do;
* `InFlightOrder.applyUpdate_of_counts`, `applyUpdate_of_late`, `applyUpdate_of_terminal`,
  `applyUpdate_of_foreign` — which of it happens when;
* `InFlightOrder.applyUpdate_of_repeated` — of two observations under one place the first counts;
* `InFlightOrder.exchangeId_advance_of_some`, `exchangeId_advance_of_none` — the exchange id after an
  observation that counts;
* `InFlightOrder.SameOrder` — what observations never change.
-/

set_option autoImplicit false

namespace SpotGateway.InFlightOrder

variable {o : InFlightOrder} {u : OrderUpdate}

/-- The place is after that of the last observation that counted. -/
def Before (o : InFlightOrder) (sequence : Nat) : Prop :=
  ∀ last, o.lastSequence = some last → last < sequence

/-- The exchange id that is reported, if one is, is the one on record, if one is. -/
def Agrees (o : InFlightOrder) (u : OrderUpdate) : Prop :=
  ∀ known reported, o.exchangeId = some known → u.exchangeId = some reported → known = reported

theorem staleAgainst_eq_none_iff : o.staleAgainst u = none ↔ o.Before u.sequence := by
  unfold staleAgainst Before
  cases o.lastSequence with
  | none => simp
  | some last => simp

theorem staleAgainst_eq_some_iff {last : Nat} :
    o.staleAgainst u = some last ↔ o.lastSequence = some last ∧ u.sequence ≤ last := by
  unfold staleAgainst
  cases o.lastSequence with
  | none => simp
  | some known =>
    simp only [Option.ite_none_right_eq_some, Option.some.injEq]
    constructor
    · rintro ⟨hle, rfl⟩
      exact ⟨rfl, hle⟩
    · rintro ⟨rfl, hle⟩
      exact ⟨hle, rfl⟩

theorem contradicts_eq_false_iff : o.contradicts u = false ↔ o.Agrees u := by
  unfold contradicts Agrees
  cases o.exchangeId with
  | none => simp
  | some known =>
    cases u.exchangeId with
    | none => simp
    | some reported => simp

/-! ## All that an observation can do -/

theorem applyUpdate_of_counts (before : o.Before u.sequence) (ongoing : o.isTerminal = false)
    (agrees : o.Agrees u) : o.applyUpdate u = (o.advance u, .applied o.state u.state) := by
  have hterminal : o.state.isTerminal = false := ongoing
  simp [applyUpdate, staleAgainst_eq_none_iff.mpr before, hterminal,
    contradicts_eq_false_iff.mpr agrees]

theorem applyUpdate_of_late {last : Nat} (known : o.lastSequence = some last)
    (le : u.sequence ≤ last) : o.applyUpdate u = (o, .stale u.sequence last) := by
  simp [applyUpdate, staleAgainst_eq_some_iff.mpr ⟨known, le⟩]

/-- All that an observation can do: it counts, or it is not applied and the record stays as it
is. -/
theorem counts_or_unchanged (o : InFlightOrder) (u : OrderUpdate) :
    (o.Before u.sequence ∧ o.isTerminal = false ∧ o.Agrees u ∧
        o.applyUpdate u = (o.advance u, .applied o.state u.state)) ∨
      (o.applyUpdate u).1 = o ∧ (o.applyUpdate u).2.isApplied = false := by
  cases hstale : o.staleAgainst u with
  | some last => exact Or.inr (by simp [applyUpdate, hstale, UpdateOutcome.isApplied])
  | none =>
    cases hterminal : o.state.isTerminal with
    | true => exact Or.inr (by simp [applyUpdate, hstale, hterminal, UpdateOutcome.isApplied])
    | false =>
      cases hcontradicts : o.contradicts u with
      | true =>
        exact Or.inr (by
          simp [applyUpdate, hstale, hterminal, hcontradicts, UpdateOutcome.isApplied])
      | false =>
        have before := staleAgainst_eq_none_iff.mp hstale
        have agrees := contradicts_eq_false_iff.mp hcontradicts
        exact Or.inl ⟨before, hterminal, agrees, applyUpdate_of_counts before hterminal agrees⟩

theorem applyUpdate_of_terminal (terminal : o.isTerminal = true) : (o.applyUpdate u).1 = o := by
  rcases counts_or_unchanged o u with ⟨_, ongoing, _, _⟩ | ⟨unchanged, _⟩
  · rw [terminal] at ongoing
    cases ongoing
  · exact unchanged

theorem applyUpdate_of_foreign (contradicts : ¬ o.Agrees u) : (o.applyUpdate u).1 = o := by
  rcases counts_or_unchanged o u with ⟨_, _, agrees, _⟩ | ⟨unchanged, _⟩
  · exact absurd agrees contradicts
  · exact unchanged

/-- Of two observations that share their place and the exchange id that they report, only the first
can count. -/
theorem applyUpdate_of_repeated {u' : OrderUpdate} (hplace : u'.sequence = u.sequence)
    (hid : u'.exchangeId = u.exchangeId) :
    ((o.applyUpdate u).1.applyUpdate u').1 = (o.applyUpdate u).1 := by
  rcases counts_or_unchanged o u with ⟨_, _, _, counted⟩ | ⟨unchanged, ignored⟩
  · have late := applyUpdate_of_late (o := o.advance u) (u := u') rfl (Nat.le_of_eq hplace)
    rw [counted, late]
  · rw [unchanged]
    rcases counts_or_unchanged o u' with ⟨before, ongoing, agrees, _⟩ | ⟨unchanged', _⟩
    · -- nothing is asked of the second that the first does not meet as well
      have agreed : o.Agrees u := fun known reported hknown hreported =>
        agrees known reported hknown (hid.trans hreported)
      rw [applyUpdate_of_counts (hplace ▸ before) ongoing agreed] at ignored
      cases ignored
    · exact unchanged'

theorem exchangeId_advance_of_some {exchangeId : String} (h : o.exchangeId = some exchangeId) :
    (o.advance u).exchangeId = some exchangeId := by
  simp [advance, h]

/-- The first exchange id that is reported goes on record. -/
theorem exchangeId_advance_of_none (h : o.exchangeId = none) :
    (o.advance u).exchangeId = u.exchangeId := by
  simp [advance, h]

/-! ## What observations never change -/

/-- The two are records of one order. -/
structure SameOrder (o o' : InFlightOrder) : Prop where
  clientId : o'.clientId = o.clientId
  pair : o'.pair = o.pair
  side : o'.side = o.side
  kind : o'.kind = o.kind
  amount : o'.amount = o.amount
  price : o'.price = o.price
  createdAt : o'.createdAt = o.createdAt

theorem SameOrder.refl (o : InFlightOrder) : o.SameOrder o := ⟨rfl, rfl, rfl, rfl, rfl, rfl, rfl⟩

theorem SameOrder.trans {o₁ o₂ o₃ : InFlightOrder} (h : o₁.SameOrder o₂) (h' : o₂.SameOrder o₃) :
    o₁.SameOrder o₃ :=
  ⟨h'.clientId.trans h.clientId, h'.pair.trans h.pair, h'.side.trans h.side, h'.kind.trans h.kind,
    h'.amount.trans h.amount, h'.price.trans h.price, h'.createdAt.trans h.createdAt⟩

theorem sameOrder_advance (o : InFlightOrder) (u : OrderUpdate) : o.SameOrder (o.advance u) :=
  ⟨rfl, rfl, rfl, rfl, rfl, rfl, rfl⟩

theorem sameOrder_applyUpdate (o : InFlightOrder) (u : OrderUpdate) :
    o.SameOrder (o.applyUpdate u).1 := by
  rcases counts_or_unchanged o u with ⟨_, _, _, counted⟩ | ⟨unchanged, _⟩
  · rw [counted]
    exact sameOrder_advance o u
  · rw [unchanged]
    exact SameOrder.refl o

end SpotGateway.InFlightOrder
