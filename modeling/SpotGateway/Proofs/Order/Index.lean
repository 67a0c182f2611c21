import SpotGateway.Proofs.Order.Ownership
import SpotGateway.Proofs.Order.Reports

/-!
# Orders, their places and their exchange ids

Places are issued in one sequence, and no order has seen a place that was not issued.  As long as
the exchange gives no id to two orders, an order is found by the id that it has.

* `OrderTracker.Orderly` — the invariant, with the places that were issued and the exchange ids that
  were given;
* `Orderly.of_indexed` — what an operation has to keep;
* `Orderly.track`, `Orderly.apply`, `Orderly.observeAll`, `Orderly.acknowledge`,
  `Orderly.nextSequence` — every operation keeps it;
* `Orderly.before_nextSequence` — the next place is newer than all that is known of any order.
-/

set_option autoImplicit false

namespace SpotGateway

namespace OrderTracker

/-- Places and exchange ids are in order. -/
structure Orderly (t : OrderTracker) (places : List Nat) (given : List (String × String)) :
    Prop where
  filed : t.Filed
  issued : ∀ n ∈ places, n ≤ t.sequencer.last
  sequenced : ∀ clientId o last, t.get? clientId = some o → o.lastSequence = some last →
    last ≤ t.sequencer.last
  known : ∀ exchangeId clientId, t.clientId? exchangeId = some clientId →
    (exchangeId, clientId) ∈ given
  indexed : Unambiguous given → ∀ clientId o exchangeId, t.get? clientId = some o →
    o.exchangeId = some exchangeId → t.clientId? exchangeId = some clientId

variable {t : OrderTracker} {o : InFlightOrder} {u : OrderUpdate} {clientId : String}
  {places : List Nat} {given : List (String × String)}

theorem Orderly.empty : Orderly empty [] [] := by
  refine ⟨Filed.empty, ?_, ?_, ?_, ?_⟩
  · intro n hn
    cases hn
  · intro clientId o last ho
    cases ho
  · intro exchangeId clientId h
    cases h
  · intro _ clientId o exchangeId ho
    cases ho

/-- Fewer places may be known to have been issued, and more exchange ids to have been given. -/
theorem Orderly.mono (h : t.Orderly places given) {fewer : List Nat}
    {more : List (String × String)} (hplaces : fewer ⊆ places) (hgiven : given ⊆ more) :
    t.Orderly fewer more :=
  ⟨h.filed, fun n hn => h.issued n (hplaces hn), h.sequenced,
    fun exchangeId clientId hk => hgiven (h.known exchangeId clientId hk),
    fun hunique => h.indexed (hunique.of_subset hgiven)⟩

theorem Orderly.toIndexed (h : t.Orderly places given) : t.Indexed given := ⟨h.known, h.indexed⟩

/-- An operation that issues no place keeps places and exchange ids in order if it keeps the index
and puts nothing on record that has seen a later place than was issued. -/
theorem Orderly.of_indexed {t' : OrderTracker} (h : t.Orderly places given) (filed : t'.Filed)
    (hindexed : t'.Indexed given) (hsequencer : t'.sequencer = t.sequencer)
    (hlast : ∀ clientId o last, t'.get? clientId = some o → o.lastSequence = some last →
      last ≤ t.sequencer.last) : t'.Orderly places given := by
  refine ⟨filed, ?_, ?_, hindexed.known, hindexed.found⟩
  · rw [hsequencer]
    exact h.issued
  · rw [hsequencer]
    exact hlast

/-! ## Every operation -/

/-- An order is tracked that nothing was observed of. -/
theorem Orderly.track (h : t.Orderly places given) (unseen : o.lastSequence = none)
    (hgiven : ∀ exchangeId, o.exchangeId = some exchangeId → (exchangeId, o.clientId) ∈ given) :
    (t.track o).1.Orderly places given := by
  refine h.of_indexed (h.filed.track o) (h.toIndexed.track hgiven) ?_ ?_
  · rcases track_cases t o with ⟨_, htrack⟩ | ⟨_, _, htrack⟩ <;> rw [htrack]
  · intro clientId o' last ho' hlast
    rw [get?_track] at ho'
    cases hold : t.get? clientId with
    | some known =>
      simp only [hold, Option.getD_some, ite_self] at ho'
      exact h.sequenced clientId o' last (hold.trans ho') hlast
    | none =>
      simp only [hold, Option.getD_none] at ho'
      split at ho'
      · cases ho'
        rw [unseen] at hlast
        cases hlast
      · cases ho'

/-- An observation is taken in whose place was issued and whose exchange id was given. -/
theorem Orderly.apply (h : t.Orderly places given) (hplace : u.sequence ∈ places)
    (hgiven : ∀ exchangeId, u.exchangeId = some exchangeId → (exchangeId, u.clientId) ∈ given) :
    (t.apply u).1.Orderly places given := by
  have hindexed := h.toIndexed.apply h.filed fun _ _ exchangeId _ hid => hgiven exchangeId hid
  refine h.of_indexed (h.filed.apply u) hindexed ?_ ?_
  · rcases apply_cases t u with ⟨_, _, _, _, _, happly⟩ | ⟨hsame, _⟩
    · rw [happly]
      rfl
    · rw [hsame]
  · intro clientId o' last ho' hlast
    rcases apply_cases t u with ⟨o, _, _, _, _, happly⟩ | ⟨hsame, _⟩
    · rw [happly] at ho'
      by_cases heq : clientId = u.clientId
      · rw [heq, get?_advance] at ho'
        cases ho'
        cases hlast
        exact h.issued u.sequence hplace
      · rw [get?_advance_of_ne heq] at ho'
        exact h.sequenced clientId o' last ho' hlast
    · rw [hsame] at ho'
      exact h.sequenced clientId o' last ho' hlast

/-- A report is taken in whose place was issued: its exchange id was given if it is in the index. -/
theorem Orderly.observe (h : t.Orderly places given) {r : OrderReport}
    (hplace : r.sequence ∈ places) : (t.observe r).Orderly places given := by
  unfold OrderTracker.observe
  cases hfound : t.clientId? r.exchangeId with
  | none => exact h
  | some clientId =>
    refine h.apply hplace ?_
    intro exchangeId hid
    cases hid
    exact h.known r.exchangeId clientId hfound

theorem Orderly.observeAll (h : t.Orderly places given) {reports : List OrderReport}
    (hplaces : ∀ r ∈ reports, r.sequence ∈ places) :
    (t.observeAll reports).Orderly places given := by
  induction reports generalizing t with
  | nil => exact h
  | cons r rest ih =>
    exact ih (h.observe (hplaces r List.mem_cons_self))
      fun r' hr' => hplaces r' (List.mem_cons_of_mem _ hr')

theorem Orderly.acknowledge (h : t.Orderly places given) (clientId : String) :
    (t.acknowledge clientId).1.Orderly places given := by
  refine h.of_indexed (h.filed.acknowledge clientId) (h.toIndexed.acknowledge clientId) ?_ ?_
  · rcases acknowledge_cases t clientId with ⟨_, _, _, hack⟩ | ⟨_, _, hack⟩ <;> rw [hack]
  · intro other o' last ho' hlast
    exact h.sequenced other o' last (get?_of_get?_acknowledge ho') hlast

theorem Orderly.nextSequence (h : t.Orderly places given) (now : Timestamp) :
    (t.nextSequence now).1.Orderly ((t.nextSequence now).2 :: places) given := by
  have hlater : t.sequencer.last ≤ (t.nextSequence now).1.sequencer.last :=
    Nat.le_of_lt (Sequencer.last_lt_next t.sequencer now)
  refine ⟨⟨h.filed.apart, h.filed.own⟩, ?_, ?_, h.known, h.indexed⟩
  · intro n hn
    rcases List.mem_cons.mp hn with rfl | hn
    · exact Nat.le_of_eq (Sequencer.last_next t.sequencer now).symm
    · exact Nat.le_trans (h.issued n hn) hlater
  · intro clientId o last ho hlast
    exact Nat.le_trans (h.sequenced clientId o last ho hlast) hlater

/-- The next place is newer than all that is known of any order. -/
theorem Orderly.before_nextSequence (h : t.Orderly places given) (ho : t.get? clientId = some o)
    (now : Timestamp) : o.Before (t.nextSequence now).2 :=
  fun last hlast => Nat.lt_of_le_of_lt (h.sequenced clientId o last ho hlast)
    (Sequencer.last_lt_next t.sequencer now)

end OrderTracker

end SpotGateway
