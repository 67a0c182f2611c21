import SpotGateway.Proofs.Order.Rearrangement
import SpotGateway.Proofs.Session.BrokenLists
import SpotGateway.Proofs.Session.Evolution

/-!
# Lists of orders in any order

The entries of a list are taken in one after another, all under one place.  What is known afterwards
does not depend on the order in which they come, and of several entries about one order only the
first counts.

* `OrderListEntry.Regular` — entries that can be taken in;
* `Session.reportOf?` — what an entry says about its order;
* `Session.finish_of_list` — what becomes of a session that is given a list of such entries;
* `Session.TakesIn` — what is known after a list, order by order;
* `Dialogue.unordered_of_run` — lists after any dialogue.
-/

set_option autoImplicit false

namespace SpotGateway

/-- The status of the entry is known, and its executed amount can be told. -/
def OrderListEntry.Regular (e : OrderListEntry) : Prop :=
  e.hasKnownStatus = true ∧ ¬ e.Overdraws

/-- The reply is successful, and its body is a list of these entries. -/
def Http.Response.Lists (r : Http.Response) (entries : List OrderListEntry) : Prop :=
  r.isSuccess = true ∧ Json.decode (Json.Decoder.list OrderListEntry.decoder) r.body = .ok entries

namespace Session

variable {s : Session} {receivedAt now : Timestamp} {sequence : Nat} {e : OrderListEntry}
  {entries : List OrderListEntry}

/-! ## Reports of entries -/

/-- What an entry says about its order, if it can be taken in. -/
def reportOf? (s : Session) (receivedAt : Timestamp) (sequence : Nat) (e : OrderListEntry) :
    Option OrderReport := do
  let state ← (Status.normalize e.status).toOption
  (s.reportOf receivedAt sequence state e).toOption

theorem reportOf?_eq_some_iff {r : OrderReport} : s.reportOf? receivedAt sequence e = some r ↔
    ∃ state, Status.normalize e.status = .ok state ∧
      s.reportOf receivedAt sequence state e = .ok r := by
  simp only [reportOf?, Option.bind_eq_bind, Option.bind_eq_some_iff, toOption_eq_some_iff]

theorem exchangeId_reportOf? {r : OrderReport} (h : s.reportOf? receivedAt sequence e = some r) :
    r.exchangeId = e.id := by
  obtain ⟨state, _, hreport⟩ := reportOf?_eq_some_iff.mp h
  exact exchangeId_reportOf hreport

theorem sequence_reportOf? {r : OrderReport} (h : s.reportOf? receivedAt sequence e = some r) :
    r.sequence = sequence := by
  obtain ⟨state, _, hreport⟩ := reportOf?_eq_some_iff.mp h
  exact sequence_reportOf hreport

/-- An entry whose status is known and whose executed amount can be told says something. -/
theorem exists_reportOf? (s : Session) (receivedAt : Timestamp) (sequence : Nat)
    (h : e.Regular) : ∃ r, s.reportOf? receivedAt sequence e = some r := by
  obtain ⟨hknown, hmoderate⟩ := h
  cases hstatus : Status.normalize e.status with
  | error error =>
    rw [OrderListEntry.hasKnownStatus, hstatus] at hknown
    cases hknown
  | ok state =>
    cases hreport : s.reportOf receivedAt sequence state e with
    | ok r => exact ⟨r, reportOf?_eq_some_iff.mpr ⟨state, hstatus, hreport⟩⟩
    | error fault =>
      rw [reportOf, bind_pure_eq_error_iff, OrderListEntry.executed_eq_error_iff] at hreport
      exact absurd hreport.2 hmoderate

/-- Every entry has its report. -/
theorem map_reportOf? (h : ∀ e ∈ entries, e.Regular) :
    entries.map (s.reportOf? receivedAt sequence) =
      (entries.filterMap (s.reportOf? receivedAt sequence)).map some := by
  induction entries with
  | nil => rfl
  | cons e rest ih =>
    obtain ⟨r, hr⟩ := exists_reportOf? s receivedAt sequence (h e List.mem_cons_self)
    have hrest := ih fun e' he' => h e' (List.mem_cons_of_mem _ he')
    rw [List.map_cons, hrest, List.filterMap_cons_some hr, List.map_cons, hr]

/-- The first report about an exchange id is that of the first entry about it. -/
theorem find?_reports (h : ∀ e ∈ entries, e.Regular) (exchangeId : String) :
    (entries.filterMap (s.reportOf? receivedAt sequence)).find?
        (fun r => r.exchangeId = exchangeId) =
      (entries.find? fun e => e.id = exchangeId).bind (s.reportOf? receivedAt sequence) := by
  induction entries with
  | nil => rfl
  | cons e rest ih =>
    obtain ⟨r, hr⟩ := exists_reportOf? s receivedAt sequence (h e List.mem_cons_self)
    have hrest := ih fun e' he' => h e' (List.mem_cons_of_mem _ he')
    have hid := exchangeId_reportOf? hr
    rw [List.filterMap_cons_some hr]
    by_cases hnamed : e.id = exchangeId
    · rw [List.find?_cons_of_pos (by simp [hid, hnamed]), List.find?_cons_of_pos (by simp [hnamed]),
        Option.bind_some, hr]
    · rw [List.find?_cons_of_neg (by simp [hid, hnamed]), List.find?_cons_of_neg (by simp [hnamed]),
        hrest]

theorem sequence_of_mem_reports {r : OrderReport}
    (h : r ∈ entries.filterMap (s.reportOf? receivedAt sequence)) : r.sequence = sequence := by
  obtain ⟨e, _, hr⟩ := List.mem_filterMap.mp h
  exact sequence_reportOf? hr

/-! ## Lists that are taken in -/

theorem foldl_observe (s : Session) (reports : List OrderReport) :
    reports.foldl observe s = { s with tracker := s.tracker.observeAll reports } := by
  induction reports generalizing s with
  | nil => rfl
  | cons r rest ih =>
    rw [List.foldl_cons, ih]
    rfl

theorem takeReports_of_regular (h : ∀ e ∈ entries, e.Regular) :
    s.takeReports receivedAt sequence entries =
      let reports := entries.filterMap (s.reportOf? receivedAt sequence)
      .ok ({ s with tracker := s.tracker.observeAll reports }, .ok reports) := by
  simp only [← foldl_observe]
  induction entries generalizing s with
  | nil => rfl
  | cons e rest ih =>
    obtain ⟨r, hr⟩ := exists_reportOf? s receivedAt sequence (h e List.mem_cons_self)
    obtain ⟨state, hstatus, hreport⟩ := reportOf?_eq_some_iff.mp hr
    -- what entries say depends on the symbols alone, which stay as they are
    have hrest := ih (s := s.observe r) fun e' he' => h e' (List.mem_cons_of_mem _ he')
    unfold takeReports
    simp only [hstatus, hreport, bind, Except.bind, hrest, List.filterMap_cons_some hr]
    rfl

/-- A call that is given a list whose entries can all be taken in answers what they say. -/
theorem finish_of_list {now : Readings} {p : Pending} (hp : p.errand.lists = true)
    {response : Http.Response} (hlists : response.Lists entries)
    (hregular : ∀ e ∈ entries, e.Regular) : s.finish now p (.reply response) = do
      let receivedAt ← s.serverNow now.record
      let reports := entries.filterMap (s.reportOf? receivedAt p.sequence)
      return ({ s.record p.reservation with tracker := s.tracker.observeAll reports },
        .ok (.reports reports)) := by
  obtain ⟨hsuccess, hdecode⟩ := hlists
  have htaken : (s.record p.reservation).takeBody now.record p.sequence p.errand response.body =
      (s.record p.reservation).takeOrderList now.record p.sequence p.errand response.body := by
    generalize p.errand = errand at hp
    cases errand <;> cases hp <;> rfl
  have hclock : (s.record p.reservation).serverNow now.record = s.serverNow now.record := rfl
  simp only [finish, settle, hsuccess, if_true, htaken, takeOrderList, taking,
    readBody_eq_ok_iff.mpr hdecode, hclock]
  refine congrArg (s.serverNow now.record >>= ·) (funext fun receivedAt => ?_)
  rw [takeReports_of_regular hregular]
  rfl

/-! ## What is known afterwards -/

/-- What is known of orders after a list: the reports are those of the entries, one for each and in
their order; orders and their exchange ids are the same as before, and the record of each order is
the one that comes of the first report about it; so it is the same unless the order is found by the
id of an entry. -/
structure TakesIn (s : Session) (receivedAt : Timestamp) (sequence : Nat)
    (entries : List OrderListEntry) (after : Session) (reports : List OrderReport) : Prop where
  answered : entries.map (s.reportOf? receivedAt sequence) = reports.map some
  keys : after.tracker.orders.keys = s.tracker.orders.keys
  index : after.tracker.exchangeIds = s.tracker.exchangeIds
  records : ∀ clientId,
    after.tracker.get? clientId = (s.tracker.get? clientId).map (s.tracker.heard reports)
  reached : ∀ clientId, after.tracker.get? clientId ≠ s.tracker.get? clientId →
    ∃ e ∈ entries, s.tracker.clientId? e.id = some clientId

theorem takesIn_of_regular (h : s.tracker.WellIndexed) (hregular : ∀ e ∈ entries, e.Regular)
    {after : Session} (htracker : after.tracker =
      s.tracker.observeAll (entries.filterMap (s.reportOf? receivedAt sequence))) :
    s.TakesIn receivedAt sequence entries after
      (entries.filterMap (s.reportOf? receivedAt sequence)) := by
  have hplace : ∀ r ∈ entries.filterMap (s.reportOf? receivedAt sequence), r.sequence = sequence :=
    fun r hr => sequence_of_mem_reports hr
  have hrecords := OrderTracker.get?_observeAll_eq h.filed h.leads hplace
  have hall := OrderTracker.observeAll_eq h.filed h.leads hplace
  rw [← htracker] at hall hrecords
  refine ⟨map_reportOf? hregular, ?_, ?_, hrecords, ?_⟩
  · rw [hall]
    exact Keyed.keys_mapValues _ _
  · rw [hall]
  · intro clientId hchanged
    rw [hrecords clientId] at hchanged
    cases ho : s.tracker.get? clientId with
    | none =>
      rw [ho] at hchanged
      exact absurd rfl hchanged
    | some o =>
      rw [ho, Option.map_some, Ne, Option.some.injEq] at hchanged
      obtain ⟨r, hr, hindexed⟩ := OrderTracker.indexed_of_heard hchanged
      obtain ⟨e, he, hreport⟩ := List.mem_filterMap.mp hr
      rw [exchangeId_reportOf? hreport, h.filed.own clientId o ho] at hindexed
      exact ⟨e, he, hindexed⟩

/-- Lists with the same first entry about each exchange id leave the same session behind. -/
theorem observeAll_of_sameFirst (h : s.tracker.WellIndexed) {entries' : List OrderListEntry}
    (hregular : ∀ e ∈ entries, e.Regular) (hregular' : ∀ e ∈ entries', e.Regular)
    (hfirst : ∀ id, entries.find? (fun e => e.id = id) = entries'.find? fun e => e.id = id) :
    s.tracker.observeAll (entries'.filterMap (s.reportOf? receivedAt sequence)) =
      s.tracker.observeAll (entries.filterMap (s.reportOf? receivedAt sequence)) := by
  refine OrderTracker.observeAll_congr h.filed h.leads (fun r hr => sequence_of_mem_reports hr)
    (fun r hr => sequence_of_mem_reports hr) fun exchangeId => ?_
  rw [find?_reports hregular, find?_reports hregular', hfirst]

end Session

namespace Dialogue

variable {d : Dialogue}

/-- **Lists of orders are taken in alike in any order.**  After every dialogue with a new session in
which no order from outside was refused (by `admitting_of_run` none is where only submitted orders are
followed), let a call for a list of orders be finished with a successful reply whose entries have
statuses that are known and executed amounts that can be told.  If the exchange's time cannot be told
the session stops there, whatever the list.  Otherwise:

* the call answers what the entries say, entry by entry; the orders and the index of exchange ids
  stay the same, and a record changes only if its order is found by the id of an entry;
* a list with the same first entry about each exchange id leaves the same session behind, so what
  comes after the first entry about an order does not matter to it;
* and if no id occurs twice, the entries in any other order leave the same session behind, and the
  answers are the same reports in that order. -/
theorem unordered_of_run {config : Config} {credentials : Credentials} {s : Session}
    (hs : Session.create config credentials = .ok s) {moves : List Move} {reactions : List Reaction}
    (hrun : (opening s).run moves = .ok (d, reactions)) (hadmitting : Admitting reactions)
    {p : Pending} (hp : p.errand.lists = true) (now : Readings) {response : Http.Response}
    {entries : List OrderListEntry} (hlists : response.Lists entries)
    (hregular : ∀ e ∈ entries, e.Regular) :
    (∀ fault, d.session.serverNow now.record = .error fault →
      d.session.finish now p (.reply response) = .error fault) ∧
    ∀ receivedAt, d.session.serverNow now.record = .ok receivedAt → ∃ after reports,
      d.session.finish now p (.reply response) = .ok (after, .ok (.reports reports)) ∧
      d.session.TakesIn receivedAt p.sequence entries after reports ∧
      (∀ response' entries', response'.Lists entries' → (∀ e ∈ entries', e.Regular) →
        (∀ id, entries.find? (fun e => e.id = id) = entries'.find? fun e => e.id = id) →
        ∃ reports', d.session.finish now p (.reply response') =
            .ok (after, .ok (.reports reports')) ∧
          entries'.map (d.session.reportOf? receivedAt p.sequence) = reports'.map some) ∧
      (∀ response' entries', response'.Lists entries' → (entries.map OrderListEntry.id).Nodup →
        entries.Perm entries' →
        ∃ reports', d.session.finish now p (.reply response') =
            .ok (after, .ok (.reports reports')) ∧
          reports.Perm reports' ∧
          entries'.map (d.session.reportOf? receivedAt p.sequence) = reports'.map some) := by
  have hindexed := wellIndexed_of_run hs hrun hadmitting
  constructor
  · intro fault hstopped
    rw [Session.finish_of_list hp hlists hregular, hstopped]
    rfl
  intro receivedAt hnow
  have hfinish : ∀ response' entries', response'.Lists entries' → (∀ e ∈ entries', e.Regular) →
      d.session.finish now p (.reply response') =
        let reports := entries'.filterMap (d.session.reportOf? receivedAt p.sequence)
        .ok ({ d.session.record p.reservation with
          tracker := d.session.tracker.observeAll reports }, .ok (.reports reports)) := by
    intro response' entries' hlists' hregular'
    rw [Session.finish_of_list hp hlists' hregular', hnow]
    rfl
  have hsame : ∀ response' entries', response'.Lists entries' → (∀ e ∈ entries', e.Regular) →
      (∀ id, entries.find? (fun e => e.id = id) = entries'.find? fun e => e.id = id) →
      d.session.finish now p (.reply response') =
        .ok ({ d.session.record p.reservation with
          tracker := d.session.tracker.observeAll
            (entries.filterMap (d.session.reportOf? receivedAt p.sequence)) },
          .ok (.reports (entries'.filterMap (d.session.reportOf? receivedAt p.sequence)))) := by
    intro response' entries' hlists' hregular' hfirst
    rw [hfinish response' entries' hlists' hregular']
    simp only [Session.observeAll_of_sameFirst hindexed hregular hregular' hfirst]
  refine ⟨_, _, hfinish response entries hlists hregular,
    Session.takesIn_of_regular hindexed hregular rfl, ?_, ?_⟩
  · intro response' entries' hlists' hregular' hfirst
    exact ⟨_, hsame response' entries' hlists' hregular' hfirst,
      Session.map_reportOf? hregular'⟩
  · intro response' entries' hlists' hdistinct hperm
    have hregular' : ∀ e ∈ entries', e.Regular := fun e he => hregular e (hperm.mem_iff.mpr he)
    have hfirst : ∀ id, entries.find? (fun e => e.id = id) = entries'.find? fun e => e.id = id :=
      find?_name_eq_of_perm hdistinct hperm
    exact ⟨_, hsame response' entries' hlists' hregular' hfirst, hperm.filterMap _,
      Session.map_reportOf? hregular'⟩

end Dialogue

/-! ## One list -/

namespace Session

/-- What is read of an entry that tells an exchange id and a status, and that nothing is left. -/
def entryOf (e : String × String) : OrderListEntry where
  id := e.1
  userId := none
  market := "M"
  price := none
  timestamp := none
  placedSize := none
  status := e.2
  bids := true
  orderType := none
  size := .zero
  displayStatus := none
  matchedOrders := []
  placedType := none
  tradedPrice := none
  tradeSize := none
  meanMatchPrice := none

/-- The entry is the one that is read. -/
def isEntryOf (e : String × String) (x : OrderListEntry) : Bool :=
  x.id = e.1 && x.userId = none && x.market = "M" && x.price = none && x.timestamp = none &&
    x.placedSize = none && x.status = e.2 && x.bids && x.orderType = none && x.size = .zero &&
    x.displayStatus = none && x.matchedOrders.isEmpty && x.placedType = none &&
    x.tradedPrice = none && x.tradeSize = none && x.meanMatchPrice = none

theorem eq_of_isEntryOf {e : String × String} {x : OrderListEntry} (h : isEntryOf e x = true) :
    x = entryOf e := by
  cases x
  simp only [isEntryOf, Bool.and_eq_true, decide_eq_true_eq, List.isEmpty_iff] at h
  simp only [entryOf, OrderListEntry.mk.injEq]
  simp [h]

/-- A list of two entries. -/
def listText (a b : String × String) : String := "[" ++ entryText a ++ "," ++ entryText b ++ "]"

/-- The two entries are read from their list. -/
def isRead (a b : String × String) : Bool :=
  match Json.decode (Json.Decoder.list OrderListEntry.decoder) (listText a b) with
  | .ok [x, y] => isEntryOf a x && isEntryOf b y
  | _ => false

theorem lists_of_isRead {a b : String × String} (h : isRead a b = true) :
    Http.Response.Lists ⟨200, listText a b⟩ [entryOf a, entryOf b] := by
  refine ⟨rfl, ?_⟩
  unfold isRead at h
  split at h
  · rename_i x y hdecode
    rw [Bool.and_eq_true] at h
    rw [hdecode, eq_of_isEntryOf h.1, eq_of_isEntryOf h.2]
  · cases h

theorem isRead_both : isRead ("e1", "FILLED") ("e2", "CANCELLED") = true ∧
    isRead ("e2", "CANCELLED") ("e1", "FILLED") = true := by
  decide +kernel

theorem regular_entryOf {id status : String} (h : (Status.normalize status).isOk = true) :
    (entryOf (id, status)).Regular := by
  refine ⟨h, ?_⟩
  rintro ⟨_, placed, hplaced, _⟩
  cases hplaced

end Session

namespace Dialogue

open Session

/-- Two orders on the book are followed, and a list of open orders is asked for. -/
def twoFollowed : List Move :=
  [.track onBook, .track { onBook with clientId := "c2", exchangeId := some "e2" },
    .start (.still ⟨0, false⟩) false .openOrders]

/-- One of the two orders is filled and the other canceled, whichever the list names first. -/
theorem unordered_twoFollowed : ∃ s d reactions p after reports reports',
    Session.create .default ⟨"key", "secret", none⟩ = .ok s ∧
    (opening s).run twoFollowed = .ok (d, reactions) ∧ Admitting reactions ∧ d.waiting = [p] ∧
    d.session.finish (.still ⟨0, false⟩) p
        (.reply ⟨200, listText ("e1", "FILLED") ("e2", "CANCELLED")⟩) =
      .ok (after, .ok (.reports reports)) ∧
    d.session.finish (.still ⟨0, false⟩) p
        (.reply ⟨200, listText ("e2", "CANCELLED") ("e1", "FILLED")⟩) =
      .ok (after, .ok (.reports reports')) ∧
    reports.Perm reports' ∧ reports.map OrderReport.exchangeId = ["e1", "e2"] ∧
    (after.tracker.get? "c1").map InFlightOrder.state = some .filled ∧
    (after.tracker.get? "c2").map InFlightOrder.state = some .canceled := by
  obtain ⟨s, d, reactions, p, first, second, hs, hrun, hreactions, hwaiting, hlists, hnow, hfirst,
      hsecond, hids, hfilled, hcanceled⟩ : ∃ s d reactions p first second,
      Session.create .default ⟨"key", "secret", none⟩ = .ok s ∧
      (opening s).run twoFollowed = .ok (d, reactions) ∧
      reactions = [.tracked (.ok ()), .tracked (.ok ()), .sent p] ∧ d.waiting = [p] ∧
      p.errand.lists = true ∧ d.session.serverNow ⟨0, false⟩ = .ok ⟨0, false⟩ ∧
      d.session.reportOf? ⟨0, false⟩ p.sequence (entryOf ("e1", "FILLED")) = some first ∧
      d.session.reportOf? ⟨0, false⟩ p.sequence (entryOf ("e2", "CANCELLED")) = some second ∧
      [first, second].map OrderReport.exchangeId = ["e1", "e2"] ∧
      ((d.session.tracker.get? "c1").map (d.session.tracker.heard [first, second])).map
        InFlightOrder.state = some .filled ∧
      ((d.session.tracker.get? "c2").map (d.session.tracker.heard [first, second])).map
        InFlightOrder.state = some .canceled :=
    ⟨_, _, _, _, _, _, rfl, rfl, rfl, rfl, rfl, rfl, rfl, rfl, rfl, rfl, rfl⟩
  have hadmitting : Admitting reactions := by
    rw [hreactions]
    intro error hmem
    simp at hmem
  obtain ⟨hread, hread'⟩ := isRead_both
  have hregular : ∀ e ∈ [entryOf ("e1", "FILLED"), entryOf ("e2", "CANCELLED")], e.Regular := by
    intro e he
    simp only [List.mem_cons, List.not_mem_nil, or_false] at he
    rcases he with rfl | rfl
    · exact regular_entryOf rfl
    · exact regular_entryOf rfl
  obtain ⟨after, reports, hfinish, htaken, _, hreordered⟩ :=
    (unordered_of_run hs hrun hadmitting hlists (.still ⟨0, false⟩) (lists_of_isRead hread)
      hregular).2 _ hnow
  obtain ⟨reports', hfinish', hperm, _⟩ := hreordered _ _ (lists_of_isRead hread') (by decide)
    (List.Perm.swap _ _ _)
  have hreports : reports = [first, second] := by
    have hanswered : [first, second].map some = reports.map some := by
      have h := htaken.answered
      rw [List.map_cons, List.map_singleton, hfirst, hsecond] at h
      exact h
    exact (List.map_injective_iff.mpr (Option.some_injective _) hanswered).symm
  subst hreports
  refine ⟨s, d, reactions, p, after, _, reports', hs, hrun, hadmitting, hwaiting, hfinish, hfinish',
    hperm, hids, ?_, ?_⟩
  · rw [htaken.records, hfilled]
  · rw [htaken.records, hcanceled]

end Dialogue

end SpotGateway
