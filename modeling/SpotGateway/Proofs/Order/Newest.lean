import Mathlib.Data.List.Nodup
import SpotGateway.Proofs.Order.Lifecycle

/-!
# The newest observation wins

Observations of one order may arrive in any order: the record ends with what the newest says.

* `InFlightOrder.Shows`, `InFlightOrder.shows_advance` — what an observation says is on record;
* `InFlightOrder.takeAll` — observations one after another;
* `InFlightOrder.Coherent` — observations that can be told apart and do not contradict each other;
* `InFlightOrder.Awaits`, `Awaits.takeAll` — the newest has not arrived yet, and when it does it
  counts and nothing after it does;
* `OrderTracker.get?_run_apply` — an order in a tracker takes the observations of its client id;
* `InFlightOrder.newest_wins` — the record after observations in any order.
-/

set_option autoImplicit false

namespace SpotGateway

namespace InFlightOrder

variable {o : InFlightOrder} {newest : OrderUpdate} {us arrivals : List OrderUpdate}

/-- What the observation says is on record. -/
structure Shows (o : InFlightOrder) (u : OrderUpdate) : Prop where
  state : o.state = u.state
  lastSequence : o.lastSequence = some u.sequence
  updatedAt : o.updatedAt = u.time
  /-- The executed amount is the reported one. -/
  reported : ∀ executed, u.executed = some executed → o.executed = executed
  /-- Where none is reported an order that is filled is executed in full. -/
  filled : u.executed = none → u.state = .filled → o.executed = o.amount

theorem shows_advance (o : InFlightOrder) (u : OrderUpdate) : (o.advance u).Shows u := by
  refine ⟨rfl, rfl, rfl, ?_, ?_⟩
  · intro executed h
    simp only [advance, executedAfter, h]
  · intro h hfilled
    simp only [advance, executedAfter, h, hfilled, if_true]

/-- The record after observations, in the order in which they arrive. -/
def takeAll (o : InFlightOrder) (arrivals : List OrderUpdate) : InFlightOrder :=
  arrivals.foldl (fun o u => (o.applyUpdate u).1) o

/-- The observations can be told apart by their places, all of them after the last one that counted;
the exchange ids that are reported or on record agree; and at most the newest is final. -/
structure Coherent (o : InFlightOrder) (us : List OrderUpdate) (newest : OrderUpdate) : Prop where
  mem : newest ∈ us
  highest : ∀ u ∈ us, u.sequence ≤ newest.sequence
  distinct : (us.map OrderUpdate.sequence).Nodup
  before : ∀ u ∈ us, o.Before u.sequence
  agrees : ∀ u ∈ us, o.Agrees u
  consistent : ∀ u ∈ us, ∀ v ∈ us, ∀ a b, u.exchangeId = some a → v.exchangeId = some b → a = b
  final : ∀ u ∈ us, u.state.isTerminal = true → u = newest

/-! ## Waiting for the newest -/

/-- The newest has not arrived yet, and nothing that arrives before it can keep it from counting. -/
structure Awaits (o : InFlightOrder) (newest : OrderUpdate) (arrivals : List OrderUpdate) :
    Prop where
  ongoing : o.isTerminal = false
  before : o.Before newest.sequence
  behind : ∀ u ∈ arrivals, u = newest ∨ u.sequence < newest.sequence
  final : ∀ u ∈ arrivals, u.state.isTerminal = true → u = newest
  agrees : ∀ u ∈ arrivals, o.Agrees u
  consistent : ∀ u ∈ arrivals, ∀ v ∈ arrivals, ∀ a b,
    u.exchangeId = some a → v.exchangeId = some b → a = b

theorem Coherent.awaits (h : o.Coherent us newest) (ongoing : o.isTerminal = false)
    (hperm : arrivals.Perm us) : o.Awaits newest arrivals := by
  have hmem : ∀ u ∈ arrivals, u ∈ us := fun u hu => hperm.mem_iff.mp hu
  refine ⟨ongoing, h.before _ h.mem, ?_, fun u hu => h.final u (hmem u hu),
    fun u hu => h.agrees u (hmem u hu),
    fun u hu v hv => h.consistent u (hmem u hu) v (hmem v hv)⟩
  intro u hu
  by_cases heq : u.sequence = newest.sequence
  · exact Or.inl (List.inj_on_of_nodup_map h.distinct (hmem u hu) h.mem heq)
  · have hle := h.highest u (hmem u hu)
    exact Or.inr (by omega)

/-- What arrives before the newest leaves it waited for. -/
theorem Awaits.applyUpdate {u : OrderUpdate} {rest : List OrderUpdate}
    (h : o.Awaits newest (u :: rest)) (hne : u ≠ newest) :
    (o.applyUpdate u).1.Awaits newest rest := by
  have hlt : u.sequence < newest.sequence :=
    (h.behind u List.mem_cons_self).resolve_left hne
  have htail : ∀ v ∈ rest, v ∈ u :: rest := fun v hv => List.mem_cons_of_mem _ hv
  rcases o.counts_or_unchanged u with ⟨_, _, _, counted⟩ | ⟨unchanged, _⟩
  · rw [counted]
    refine ⟨?_, ?_, fun v hv => h.behind v (htail v hv), fun v hv => h.final v (htail v hv), ?_,
      fun v hv w hw => h.consistent v (htail v hv) w (htail w hw)⟩
    · cases hterminal : u.state.isTerminal with
      | false => exact hterminal
      | true => exact absurd (h.final u List.mem_cons_self hterminal) hne
    · intro last hlast
      cases hlast
      exact hlt
    · intro v hv known reported hknown hreported
      -- the id on record now is the one from before, or the one that was just reported
      cases hid : o.exchangeId with
      | some former =>
        rw [exchangeId_advance_of_some hid] at hknown
        exact h.agrees v (htail v hv) known reported (hid.trans hknown) hreported
      | none =>
        rw [exchangeId_advance_of_none hid] at hknown
        exact h.consistent u List.mem_cons_self v (htail v hv) known reported hknown hreported
  · rw [unchanged]
    exact ⟨h.ongoing, h.before, fun v hv => h.behind v (htail v hv),
      fun v hv => h.final v (htail v hv), fun v hv => h.agrees v (htail v hv),
      fun v hv w hw => h.consistent v (htail v hv) w (htail w hw)⟩

/-- What arrives after an observation that counted, and is not newer, changes nothing. -/
theorem takeAll_of_late {last : Nat} (known : o.lastSequence = some last)
    (late : ∀ u ∈ arrivals, u.sequence ≤ last) : o.takeAll arrivals = o := by
  induction arrivals with
  | nil => rfl
  | cons u rest ih =>
    have hu := applyUpdate_of_late known (late u List.mem_cons_self)
    have hrest := ih fun v hv => late v (List.mem_cons_of_mem _ hv)
    rw [takeAll, List.foldl_cons, hu]
    exact hrest

/-- The newest counts whenever it arrives, and nothing after it does. -/
theorem Awaits.takeAll (h : o.Awaits newest arrivals) (hmem : newest ∈ arrivals) :
    ∃ o', o.SameOrder o' ∧ o.takeAll arrivals = o'.advance newest := by
  induction arrivals generalizing o with
  | nil => cases hmem
  | cons u rest ih =>
    by_cases heq : u = newest
    · have hcounts := applyUpdate_of_counts h.before h.ongoing (heq ▸ h.agrees u List.mem_cons_self)
      have hlate : ∀ v ∈ rest, v.sequence ≤ newest.sequence := by
        intro v hv
        rcases h.behind v (List.mem_cons_of_mem _ hv) with rfl | hlt
        · exact Nat.le_refl _
        · exact Nat.le_of_lt hlt
      refine ⟨o, SameOrder.refl o, ?_⟩
      rw [InFlightOrder.takeAll, List.foldl_cons, heq, hcounts]
      exact takeAll_of_late rfl hlate
    · have hmem' : newest ∈ rest := by
        rcases List.mem_cons.mp hmem with hnewest | hrest
        · exact absurd hnewest.symm heq
        · exact hrest
      obtain ⟨o', hsame, hrest⟩ := ih (h.applyUpdate heq) hmem'
      exact ⟨o', (sameOrder_applyUpdate o u).trans hsame, hrest⟩

end InFlightOrder

/-! ## In a tracker -/

/-- An order in a tracker takes the observations of its client id, whatever else arrives. -/
theorem OrderTracker.get?_run_apply (t : OrderTracker) (clientId : String)
    (arrivals : List OrderUpdate) : (t.run (arrivals.map .apply)).get? clientId =
      (t.get? clientId).map (·.takeAll (arrivals.filter fun u => u.clientId = clientId)) := by
  induction arrivals generalizing t with
  | nil => simp [OrderTracker.run, InFlightOrder.takeAll]
  | cons u rest ih =>
    have hstep : t.run ((u :: rest).map .apply) = (t.apply u).1.run (rest.map .apply) := rfl
    rw [hstep, ih, get?_apply]
    by_cases h : u.clientId = clientId
    · simp [h, InFlightOrder.takeAll, Function.comp_def]
    · simp [h, Ne.symm h]

namespace InFlightOrder

variable {o : InFlightOrder} {newest : OrderUpdate} {us : List OrderUpdate}

/-- **The newest observation wins, in whatever order observations arrive.**  The record ends with
its state, its place, its time, and its executed amount or the whole amount if it is filled without
one, be it taken on its own or in a tracker that takes in observations of other orders as well. -/
theorem newest_wins (ongoing : o.isTerminal = false) (h : o.Coherent us newest) :
    (∀ arrivals, arrivals.Perm us →
      o.SameOrder (o.takeAll arrivals) ∧ (o.takeAll arrivals).Shows newest) ∧
    ∀ (t : OrderTracker) (clientId : String) (arrivals : List OrderUpdate),
      t.get? clientId = some o → (arrivals.filter fun u => u.clientId = clientId).Perm us →
      ∃ o', (t.run (arrivals.map .apply)).get? clientId = some o' ∧ o.SameOrder o' ∧
        o'.Shows newest := by
  have hrecord : ∀ arrivals, arrivals.Perm us →
      o.SameOrder (o.takeAll arrivals) ∧ (o.takeAll arrivals).Shows newest := by
    intro arrivals hperm
    obtain ⟨o', hsame, heq⟩ := (h.awaits ongoing hperm).takeAll (hperm.mem_iff.mpr h.mem)
    rw [heq]
    exact ⟨hsame.trans (sameOrder_advance o' newest), shows_advance o' newest⟩
  refine ⟨hrecord, ?_⟩
  intro t clientId arrivals ho hperm
  refine ⟨_, ?_, hrecord _ hperm⟩
  rw [OrderTracker.get?_run_apply, ho, Option.map_some]

/-- An order on the book, of which one observation has counted. -/
def onBook : InFlightOrder :=
  { create "id" "ETH-XLM" .buy .limit .one (some .one) ⟨0, false⟩ with
    exchangeId := some "e1", state := .open, lastSequence := some 1 }

def sighting (exchangeId : Option String) (state : OrderState) (sequence : Nat) : OrderUpdate :=
  ⟨"id", exchangeId, state, none, sequence, ⟨0, false⟩⟩

/-- The order is filled, and older observations arrive after the one that says so. -/
theorem newest_arrivesFirst :
    onBook.isTerminal = false ∧
    onBook.Coherent [sighting none .partiallyFilled 2, sighting (some "e1") .open 3,
      sighting (some "e1") .filled 4] (sighting (some "e1") .filled 4) ∧
    (onBook.takeAll [sighting (some "e1") .filled 4, sighting none .partiallyFilled 2,
      sighting (some "e1") .open 3]).Shows (sighting (some "e1") .filled 4) := by
  have hcoherent : onBook.Coherent [sighting none .partiallyFilled 2, sighting (some "e1") .open 3,
      sighting (some "e1") .filled 4] (sighting (some "e1") .filled 4) := by
    refine ⟨by decide, by decide, by decide, ?_, ?_, ?_, by decide⟩
    · intro u hu last hlast
      cases hlast
      revert u
      decide
    · intro u hu known reported hknown hreported
      cases hknown
      simp only [List.mem_cons, List.not_mem_nil, or_false] at hu
      rcases hu with rfl | rfl | rfl <;> cases hreported <;> rfl
    · intro u hu v hv a b ha hb
      simp only [List.mem_cons, List.not_mem_nil, or_false] at hu hv
      rcases hu with rfl | rfl | rfl <;> cases ha <;>
        rcases hv with rfl | rfl | rfl <;> cases hb <;> rfl
  exact ⟨by decide, hcoherent, ((newest_wins (by decide) hcoherent).1 _ (by decide)).2⟩

end InFlightOrder

end SpotGateway
