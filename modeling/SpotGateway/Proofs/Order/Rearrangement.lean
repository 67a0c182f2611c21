import SpotGateway.Proofs.Distinct
import SpotGateway.Proofs.Order.Ownership
import SpotGateway.Proofs.Order.Reports

/-!
# Reports in another order

What the index finds by an exchange id is an order that has this id.  So no order is found by two
ids, and reports that share their place do not get in each other's way: what becomes of an order is
told by its record, by the index, and by the first report that names its exchange id.

* `OrderTracker.firstAbout`, `OrderTracker.heard` — the report that an order listens to, and the
  record that comes of it;
* `OrderTracker.observe_eq`, `OrderTracker.observeAll_eq` — reports change the records one by one,
  and nothing else;
* `OrderTracker.observeAll_congr` — reports that leave the same tracker behind;
* `OrderTracker.observeAll_of_twoIds` — an order that is found by two ids.
-/

set_option autoImplicit false

namespace SpotGateway.OrderTracker

variable {t : OrderTracker} {o : InFlightOrder} {r : OrderReport} {reports : List OrderReport}
  {sequence : Nat}

/-- Of the reports, the first that names the exchange id of the order, if the index leads from this
id to the order. -/
def firstAbout (t : OrderTracker) (reports : List OrderReport) (o : InFlightOrder) :
    Option OrderReport :=
  o.exchangeId.bind fun exchangeId =>
    if t.clientId? exchangeId = some o.clientId then
      reports.find? fun r => r.exchangeId = exchangeId
    else none

/-- The record of the order once the first report about it was taken in. -/
def heard (t : OrderTracker) (reports : List OrderReport) (o : InFlightOrder) : InFlightOrder :=
  match t.firstAbout reports o with
  | some r => (o.applyUpdate (r.toUpdate o.clientId)).1
  | none => o

/-! ## The report that an order listens to -/

theorem firstAbout_eq_some_iff : t.firstAbout reports o = some r ↔
    o.exchangeId = some r.exchangeId ∧ t.clientId? r.exchangeId = some o.clientId ∧
      reports.find? (fun r' => r'.exchangeId = r.exchangeId) = some r := by
  simp only [firstAbout, Option.bind_eq_some_iff]
  constructor
  · rintro ⟨exchangeId, hid, hfirst⟩
    split at hfirst
    · rename_i hindexed
      have hnamed : r.exchangeId = exchangeId := by simpa using List.find?_some hfirst
      subst hnamed
      exact ⟨hid, hindexed, hfirst⟩
    · cases hfirst
  · rintro ⟨hid, hindexed, hfirst⟩
    exact ⟨r.exchangeId, hid, (if_pos hindexed).trans hfirst⟩

theorem heard_of_firstAbout (h : t.firstAbout reports o = some r) :
    t.heard reports o = (o.applyUpdate (r.toUpdate o.clientId)).1 := by
  rw [heard, h]

theorem heard_of_none (h : t.firstAbout reports o = none) : t.heard reports o = o := by
  rw [heard, h]

/-- An order whose record changes is found by an exchange id that is reported about. -/
theorem indexed_of_heard (h : t.heard reports o ≠ o) :
    ∃ r ∈ reports, t.clientId? r.exchangeId = some o.clientId := by
  cases hfirst : t.firstAbout reports o with
  | none => exact absurd (heard_of_none hfirst) h
  | some r =>
    obtain ⟨_, hindexed, hfound⟩ := firstAbout_eq_some_iff.mp hfirst
    exact ⟨r, List.mem_of_find?_eq_some hfound, hindexed⟩

/-- All that matters of the reports is which is the first about each exchange id. -/
theorem heard_congr {reports' : List OrderReport}
    (h : ∀ exchangeId, reports.find? (fun r => r.exchangeId = exchangeId) =
      reports'.find? fun r => r.exchangeId = exchangeId) :
    t.heard reports = t.heard reports' := by
  funext o
  simp only [heard, firstAbout, h]

/-- An order stays found by the id that it was found by. -/
theorem firstAbout_heard (t : OrderTracker) (reports later : List OrderReport) (o : InFlightOrder) :
    t.firstAbout later (t.heard reports o) = t.firstAbout later o := by
  cases hfirst : t.firstAbout reports o with
  | none => rw [heard_of_none hfirst]
  | some r =>
    obtain ⟨hid, _, _⟩ := firstAbout_eq_some_iff.mp hfirst
    rw [heard_of_firstAbout hfirst]
    rcases o.counts_or_unchanged (r.toUpdate o.clientId) with ⟨_, _, _, counted⟩ | ⟨unchanged, _⟩
    · have hkept : (o.advance (r.toUpdate o.clientId)).exchangeId = o.exchangeId :=
        (InFlightOrder.exchangeId_advance_of_some hid).trans hid.symm
      rw [counted]
      simp only [firstAbout, hkept]
      rfl
    · rw [unchanged]

/-- The first report about an order is the first of all, or the first of those that follow. -/
theorem firstAbout_cons (t : OrderTracker) (r : OrderReport) (rest : List OrderReport)
    (o : InFlightOrder) :
    t.firstAbout (r :: rest) o = (t.firstAbout [r] o).or (t.firstAbout rest o) := by
  unfold firstAbout
  cases o.exchangeId with
  | none => rfl
  | some exchangeId =>
    simp only [Option.bind_some]
    split
    · by_cases h : r.exchangeId = exchangeId
      · simp [h]
      · simp [h]
    · rfl

/-- Of reports under one place, each order listens to the first about it alone. -/
theorem heard_cons (hplace : ∀ r' ∈ reports, r'.sequence = r.sequence) (o : InFlightOrder) :
    t.heard reports (t.heard [r] o) = t.heard (r :: reports) o := by
  cases hfirst : t.firstAbout [r] o with
  | none =>
    have hrest : t.firstAbout (r :: reports) o = t.firstAbout reports o := by
      rw [firstAbout_cons, hfirst, Option.none_or]
    rw [heard_of_none hfirst, heard, heard, hrest]
  | some first =>
    have hall : t.firstAbout (r :: reports) o = some first := by
      rw [firstAbout_cons, hfirst, Option.some_or]
    obtain ⟨hid, _, hfound⟩ := firstAbout_eq_some_iff.mp hfirst
    have hr : first = r := List.mem_singleton.mp (List.mem_of_find?_eq_some hfound)
    subst hr
    rw [heard_of_firstAbout hall]
    cases hlater : t.firstAbout reports (t.heard [first] o) with
    | none => rw [heard_of_none hlater, heard_of_firstAbout hfirst]
    | some later =>
      have hkept := firstAbout_heard t [first] reports o
      obtain ⟨hid', _, hfound'⟩ := firstAbout_eq_some_iff.mp (hkept.symm.trans hlater)
      have hsame : (t.heard [first] o).clientId = o.clientId := by
        rw [heard_of_firstAbout hfirst]
        exact (o.sameOrder_applyUpdate _).clientId
      rw [heard_of_firstAbout hlater, hsame, heard_of_firstAbout hfirst]
      exact InFlightOrder.applyUpdate_of_repeated (hplace later (List.mem_of_find?_eq_some hfound'))
        (hid'.symm.trans hid)

/-! ## Reports as a change of every record -/

/-- One report changes the records one by one.  The index stays as it is, for an order that is found
by an exchange id has it on record already. -/
theorem observe_eq (filed : t.Filed) (leads : t.Leads) (r : OrderReport) :
    t.observe r = { t with orders := t.orders.mapValues (t.heard [r]) } := by
  have hothers : ∀ clientId o, t.get? clientId = some o → t.clientId? r.exchangeId ≠ some clientId →
      t.heard [r] o = o := by
    intro clientId o ho hindexed
    cases hfirst : t.firstAbout [r] o with
    | none => exact heard_of_none hfirst
    | some first =>
      obtain ⟨_, hfound, hmem⟩ := firstAbout_eq_some_iff.mp hfirst
      rw [List.mem_singleton.mp (List.mem_of_find?_eq_some hmem), filed.own clientId o ho] at hfound
      exact absurd hfound hindexed
  unfold observe
  cases hfound : t.clientId? r.exchangeId with
  | none =>
    have hsame : t.orders.mapValues (t.heard [r]) = t.orders := by
      refine filed.apart.mapValues_eq_self fun clientId o ho => hothers clientId o ho ?_
      rw [hfound]
      exact (Option.some_ne_none clientId).symm
    rw [hsame]
  | some clientId =>
    obtain ⟨o, ho, hid⟩ := leads r.exchangeId clientId hfound
    have hown := filed.own clientId o ho
    have hfirst : t.firstAbout [r] o = some r :=
      firstAbout_eq_some_iff.mpr ⟨hid, hown.symm ▸ hfound, by simp⟩
    have hset : t.orders.set clientId (t.heard [r] o) = t.orders.mapValues (t.heard [r]) := by
      refine Keyed.set_eq_mapValues filed.apart ho fun other a hne ha => hothers other a ha ?_
      rw [hfound]
      exact fun heq => hne (Option.some.inj heq).symm
    have hget : t.get? (r.toUpdate clientId).clientId = some o := ho
    have hnamed : o.exchangeId.isNone = false := by
      rw [hid]
      rfl
    rw [heard_of_firstAbout hfirst, hown] at hset
    simp only [apply, hget, hnamed, Bool.and_false, ← hset]
    rfl

/-- Reports under one place, taken in one after another, change the records one by one: each order
listens to the first about it, whatever comes before and after. -/
theorem observeAll_eq (filed : t.Filed) (leads : t.Leads)
    (hplace : ∀ r ∈ reports, r.sequence = sequence) :
    t.observeAll reports = { t with orders := t.orders.mapValues (t.heard reports) } := by
  induction reports generalizing t with
  | nil =>
    have hnone : t.heard [] = id := by
      funext o
      refine heard_of_none ?_
      cases hfirst : t.firstAbout [] o with
      | none => rfl
      | some r => cases (firstAbout_eq_some_iff.mp hfirst).2.2
    rw [hnone]
    simp [observeAll, Keyed.mapValues]
  | cons r rest ih =>
    have hr := hplace r List.mem_cons_self
    have hrest : ∀ r' ∈ rest, r'.sequence = sequence :=
      fun r' hr' => hplace r' (List.mem_cons_of_mem _ hr')
    have hone := observe_eq filed leads r
    have hkept : (t.observe r).Filed ∧ (t.observe r).Leads := by
      unfold observe
      cases t.clientId? r.exchangeId with
      | none => exact ⟨filed, leads⟩
      | some clientId => exact ⟨filed.apply _, leads.apply filed _⟩
    have hlater : (t.observe r).heard rest = t.heard rest := by
      rw [hone]
      rfl
    have hstep : t.observeAll (r :: rest) = (t.observe r).observeAll rest := rfl
    rw [hstep, ih hkept.1 hkept.2 hrest, hlater, hone]
    have hboth : t.heard rest ∘ t.heard [r] = t.heard (r :: rest) := by
      funext o
      exact heard_cons (fun r' hr' => (hrest r' hr').trans hr.symm) o
    simp only [Keyed.mapValues_mapValues, hboth]

/-- A record after reports. -/
theorem get?_observeAll_eq (filed : t.Filed) (leads : t.Leads)
    (hplace : ∀ r ∈ reports, r.sequence = sequence) (clientId : String) :
    (t.observeAll reports).get? clientId = (t.get? clientId).map (t.heard reports) := by
  rw [observeAll_eq filed leads hplace]
  exact Keyed.get?_mapValues _ _ _

/-- Reports leave the same tracker behind if the first about each exchange id is the same. -/
theorem observeAll_congr (filed : t.Filed) (leads : t.Leads) {reports' : List OrderReport}
    (hplace : ∀ r ∈ reports, r.sequence = sequence)
    (hplace' : ∀ r ∈ reports', r.sequence = sequence)
    (h : ∀ exchangeId, reports.find? (fun r => r.exchangeId = exchangeId) =
      reports'.find? fun r => r.exchangeId = exchangeId) :
    t.observeAll reports = t.observeAll reports' := by
  rw [observeAll_eq filed leads hplace, observeAll_eq filed leads hplace', heard_congr h]

/-- Once two refused orders have led two exchange ids to one order that has none, it does matter
which report comes first. -/
theorem observeAll_of_twoIds : ∃ reports reports' : List OrderReport, reports.Perm reports' ∧
    (reports.map OrderReport.exchangeId).Nodup ∧ (∀ r ∈ reports, r.sequence = 1) ∧
    let t := [submitted "c1", { submitted "c1" with exchangeId := some "e1" },
      { submitted "c1" with exchangeId := some "e2" }].foldl (fun t o => (t.track o).1) empty
    t.observeAll reports ≠ t.observeAll reports' := by
  let report (exchangeId : String) : OrderReport :=
    ⟨exchangeId, none, .open, none, none, none, ⟨0, false⟩, 1⟩
  exact ⟨[report "e1", report "e2"], [report "e2", report "e1"], List.Perm.swap _ _ _, by decide,
    by decide, by decide⟩

end SpotGateway.OrderTracker
