import SpotGateway.Proofs.Order.Tracking

/-!
# What reports do to a tracker

The reports of one poll share their place.  The first of them about an order is taken in, and those
that follow it are as late as it is.

* `OrderTracker.get?_observe`, `OrderTracker.clientId?_observe_of_ne` — one report, as lookup shows
  it;
* `OrderTracker.observeAll` — reports one after another;
* `OrderTracker.get?_observeAll` — the first report about an order that is found by its exchange id;
* `OrderTracker.Listens`, `OrderTracker.observeAll_keeps_iff` — reports that change no record.
-/

set_option autoImplicit false

namespace SpotGateway.OrderTracker

variable {t : OrderTracker} {o : InFlightOrder} {clientId exchangeId : String}

/-! ## One report -/

/-- A report reaches the order that is found by its exchange id, and no other. -/
theorem get?_observe (t : OrderTracker) (r : OrderReport) (clientId : String) :
    (t.observe r).get? clientId = if t.clientId? r.exchangeId = some clientId
      then (t.get? clientId).map fun o => (o.applyUpdate (r.toUpdate clientId)).1
      else t.get? clientId := by
  unfold observe
  cases t.clientId? r.exchangeId with
  | none => rfl
  | some found =>
    have hfound : (r.toUpdate found).clientId = found := rfl
    simp only [get?_apply, hfound, Option.some.injEq, @eq_comm _ clientId found]
    split
    · rename_i h
      rw [h]
    · rfl

theorem clientId?_observe_of_ne {r : OrderReport} (h : r.exchangeId ≠ exchangeId) :
    (t.observe r).clientId? exchangeId = t.clientId? exchangeId := by
  unfold observe
  cases t.clientId? r.exchangeId with
  | none => rfl
  | some found =>
    exact clientId?_apply_of_ne fun hsame => h (Option.some.inj hsame)

/-- A report that is newer than all that is known of an order is taken in. -/
theorem get?_observe_of_fresh {r : OrderReport} (ho : t.get? clientId = some o)
    (ongoing : o.isTerminal = false) (before : o.Before r.sequence)
    (hid : o.exchangeId = some r.exchangeId)
    (hindexed : t.clientId? r.exchangeId = some clientId) :
    (t.observe r).get? clientId = some (o.advance (r.toUpdate clientId)) := by
  have hagrees : o.Agrees (r.toUpdate clientId) := by
    intro known reported hknown hreported
    cases hreported
    exact Option.some.inj (hknown.symm.trans hid)
  rw [get?_observe, if_pos hindexed, ho, Option.map_some,
    InFlightOrder.applyUpdate_of_counts before ongoing hagrees]

theorem get?_observe_of_late {r : OrderReport} (ho : t.get? clientId = some o) {last : Nat}
    (known : o.lastSequence = some last) (late : r.sequence ≤ last) :
    (t.observe r).get? clientId = some o := by
  have hlate : o.applyUpdate (r.toUpdate clientId) = (o, .stale r.sequence last) :=
    InFlightOrder.applyUpdate_of_late known late
  rw [get?_observe, ho, Option.map_some, hlate, ite_self]

/-- A report about another exchange id does not touch the order. -/
theorem get?_observe_of_foreign {r : OrderReport} (ho : t.get? clientId = some o)
    (hid : o.exchangeId = some exchangeId) (hforeign : r.exchangeId ≠ exchangeId) :
    (t.observe r).get? clientId = some o := by
  have hcontradicts : ¬ o.Agrees (r.toUpdate clientId) :=
    fun hagrees => hforeign (hagrees exchangeId r.exchangeId hid rfl).symm
  rw [get?_observe, ho, Option.map_some, InFlightOrder.applyUpdate_of_foreign hcontradicts,
    ite_self]

/-! ## One report after another -/

/-- Take in reports one after another. -/
def observeAll (t : OrderTracker) (reports : List OrderReport) : OrderTracker :=
  reports.foldl observe t

theorem get?_observeAll_of_late {reports : List OrderReport} (ho : t.get? clientId = some o)
    {last : Nat} (known : o.lastSequence = some last) (late : ∀ r ∈ reports, r.sequence ≤ last) :
    (t.observeAll reports).get? clientId = some o := by
  induction reports generalizing t with
  | nil => exact ho
  | cons r rest ih =>
    have hr := get?_observe_of_late ho known (late r List.mem_cons_self)
    exact ih hr fun r' hr' => late r' (List.mem_cons_of_mem _ hr')

/-- Reports put no order on record. -/
theorem get?_observeAll_of_vacant (h : t.get? clientId = none) (reports : List OrderReport) :
    (t.observeAll reports).get? clientId = none := by
  induction reports generalizing t with
  | nil => exact h
  | cons r rest ih =>
    refine ih ?_
    rw [get?_observe, h, Option.map_none, ite_self]

/-- Of reports that share a place newer than all that is known of an order, the first about it is
taken in and stays. -/
theorem get?_observeAll {reports : List OrderReport} {sequence : Nat}
    (ho : t.get? clientId = some o) (ongoing : o.isTerminal = false) (before : o.Before sequence)
    (hid : o.exchangeId = some exchangeId) (hindexed : t.clientId? exchangeId = some clientId)
    (hplace : ∀ r ∈ reports, r.sequence = sequence) {first : OrderReport}
    (hfirst : reports.find? (fun r => r.exchangeId = exchangeId) = some first) :
    (t.observeAll reports).get? clientId = some (o.advance (first.toUpdate clientId)) := by
  -- until the first about the order comes, neither its record nor its entry in the index changes
  induction reports generalizing t with
  | nil => cases hfirst
  | cons r rest ih =>
    have hr := hplace r List.mem_cons_self
    have hrest : ∀ r' ∈ rest, r'.sequence = sequence :=
      fun r' hr' => hplace r' (List.mem_cons_of_mem _ hr')
    by_cases h : r.exchangeId = exchangeId
    · rw [List.find?_cons_of_pos (by simp [h])] at hfirst
      cases hfirst
      have htaken := get?_observe_of_fresh ho ongoing (hr.symm ▸ before) (hid.trans (h ▸ rfl))
        (h.symm ▸ hindexed)
      have hstays := get?_observeAll_of_late htaken rfl
        fun r' hr' => Nat.le_of_eq ((hrest r' hr').trans hr.symm)
      exact hstays
    · rw [List.find?_cons_of_neg (by simp [h])] at hfirst
      exact ih (get?_observe_of_foreign ho hid h) ((clientId?_observe_of_ne h).trans hindexed)
        hrest hfirst

/-! ## Reports that reach no order -/

/-- A report about the exchange id under the place is taken in: an order is found by the id that has
not come to an end, has no other exchange id on record, and of which nothing as late was observed. -/
def Listens (t : OrderTracker) (exchangeId : String) (sequence : Nat) : Prop :=
  ∃ clientId o, t.clientId? exchangeId = some clientId ∧ t.get? clientId = some o ∧
    o.isTerminal = false ∧ o.Before sequence ∧
    ∀ known, o.exchangeId = some known → known = exchangeId

theorem observe_of_not_listens {r : OrderReport} (h : ¬ t.Listens r.exchangeId r.sequence) :
    t.observe r = t := by
  unfold observe
  cases hfound : t.clientId? r.exchangeId with
  | none => rfl
  | some clientId =>
    rcases apply_cases t (r.toUpdate clientId) with ⟨o, ho, before, ongoing, agrees, _⟩ | ⟨hsame, _⟩
    · exact absurd ⟨clientId, o, hfound, ho, ongoing, before,
        fun known hknown => agrees known r.exchangeId hknown rfl⟩ h
    · exact hsame

theorem observeAll_of_not_listens {reports : List OrderReport}
    (h : ∀ r ∈ reports, ¬ t.Listens r.exchangeId r.sequence) : t.observeAll reports = t := by
  induction reports with
  | nil => rfl
  | cons r rest ih =>
    have hr := observe_of_not_listens (h r List.mem_cons_self)
    have hrest := ih fun r' hr' => h r' (List.mem_cons_of_mem _ hr')
    simpa only [observeAll, List.foldl_cons, hr] using hrest

/-- The first report that is taken in leaves its place on record, and the reports that follow it do
not change that. -/
theorem get?_observeAll_of_listens {reports : List OrderReport} {sequence : Nat}
    (hplace : ∀ r ∈ reports, r.sequence = sequence) {r : OrderReport} (hr : r ∈ reports)
    (h : t.Listens r.exchangeId sequence) :
    ∃ clientId, (t.observeAll reports).get? clientId ≠ t.get? clientId := by
  induction reports with
  | nil => cases hr
  | cons first rest ih =>
    have hfirst := hplace first List.mem_cons_self
    have hrest : ∀ r' ∈ rest, r'.sequence = sequence :=
      fun r' hr' => hplace r' (List.mem_cons_of_mem _ hr')
    by_cases hlistens : t.Listens first.exchangeId first.sequence
    · obtain ⟨clientId, o, hfound, ho, ongoing, before, hagrees⟩ := hlistens
      have agrees : o.Agrees (first.toUpdate clientId) := by
        intro known reported hknown hreported
        cases hreported
        exact hagrees known hknown
      have htaken : (t.observe first).get? clientId = some (o.advance (first.toUpdate clientId)) := by
        rw [get?_observe, if_pos hfound, ho, Option.map_some,
          InFlightOrder.applyUpdate_of_counts before ongoing agrees]
      have hstays := get?_observeAll_of_late htaken rfl
        fun r' hr' => Nat.le_of_eq ((hrest r' hr').trans hfirst.symm)
      refine ⟨clientId, fun hsame => ?_⟩
      have hplaced : (t.observeAll (first :: rest)).get? clientId =
          some (o.advance (first.toUpdate clientId)) := hstays
      rw [hsame, ho, Option.some.injEq] at hplaced
      have hlast : o.lastSequence = some first.sequence := by
        rw [hplaced]
        rfl
      exact absurd (before _ hlast) (Nat.lt_irrefl _)
    · have hne : r ≠ first := by
        rintro rfl
        exact hlistens (hfirst.symm ▸ h)
      have hmem : r ∈ rest := (List.mem_cons.mp hr).resolve_left hne
      simpa only [observeAll, List.foldl_cons, observe_of_not_listens hlistens] using ih hrest hmem

/-- Reports that share a place change no record exactly if no order listens to any of them, and then
they change nothing at all. -/
theorem observeAll_keeps_iff {reports : List OrderReport} {sequence : Nat}
    (hplace : ∀ r ∈ reports, r.sequence = sequence) :
    ((t.observeAll reports).orders = t.orders ∧
        (t.observeAll reports).exchangeIds = t.exchangeIds) ↔
      ∀ r ∈ reports, ¬ t.Listens r.exchangeId sequence := by
  constructor
  · rintro ⟨hsame, _⟩ r hr hlistens
    obtain ⟨clientId, hchanged⟩ := get?_observeAll_of_listens hplace hr hlistens
    exact hchanged (by simp only [get?, hsame])
  · intro hnone
    rw [observeAll_of_not_listens fun r hr => (hplace r hr).symm ▸ hnone r hr]
    exact ⟨rfl, rfl⟩

end SpotGateway.OrderTracker
