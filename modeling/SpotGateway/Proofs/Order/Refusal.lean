import SpotGateway.Proofs.Order.Separation

/-!
# What a refused order leaves behind

An order is refused if there is one of its client id.  The records stay as they are then, but the
index takes the exchange id of the refused order, and leads from it to the order that was there.

* `OrderTracker.SameOrders`, `OrderTracker.SameIndex` — trackers whose records, and whose entries of
  the index, are looked up with the same answers;
* `OrderTracker.sameOrders_of_refused`, `OrderTracker.sameIndex_of_refused_iff` — which of the two a
  refused order leaves;
* `OrderTracker.kept_of_refused` — all that becomes of a tracker that refuses an order;
* `OrderTracker.diverted_of_refused` — an order that is not found by its exchange id any more.
-/

set_option autoImplicit false

namespace SpotGateway.OrderTracker

variable {t t' : OrderTracker} {o : InFlightOrder} {error : GatewayError}

/-- Records are looked up, counted and listed with the same answers. -/
structure SameOrders (t t' : OrderTracker) : Prop where
  records : ∀ clientId, t'.get? clientId = t.get? clientId
  size : t'.size = t.size
  active : t'.active = t.active
  terminal : t'.terminal = t.terminal

/-- Exchange ids are looked up with the same answers. -/
structure SameIndex (t t' : OrderTracker) : Prop where
  entries : ∀ exchangeId, t'.clientId? exchangeId = t.clientId? exchangeId
  found : ∀ exchangeId, t'.getByExchangeId? exchangeId = t.getByExchangeId? exchangeId

/-- The tracker that is left is the one before with the order's exchange id in the index. -/
theorem track_of_refused (h : (t.track o).2 = .error error) :
    (t.track o).1 = { t with exchangeIds := index t.exchangeIds o } := by
  rcases track_cases t o with ⟨_, htrack⟩ | ⟨_, _, htrack⟩
  · rw [htrack] at h
    cases h
  · rw [htrack]

theorem sameOrders_of_refused (h : (t.track o).2 = .error error) : t.SameOrders (t.track o).1 := by
  rw [track_of_refused h]
  exact ⟨fun _ => rfl, rfl, rfl, rfl⟩

/-- The exchange id of a refused order leads to the order that was there. -/
theorem getByExchangeId?_of_refused (h : (t.track o).2 = .error error) (exchangeId : String) :
    (t.track o).1.getByExchangeId? exchangeId =
      if o.exchangeId = some exchangeId then t.get? o.clientId
      else t.getByExchangeId? exchangeId := by
  have hrecords := (sameOrders_of_refused h).records
  unfold getByExchangeId?
  rw [clientId?_track]
  split
  · exact hrecords o.clientId
  · simp only [hrecords]

/-- The index answers as before exactly if it led from the order's exchange id to its client id
already, or if the order has no exchange id. -/
theorem sameIndex_of_refused_iff (h : (t.track o).2 = .error error) :
    t.SameIndex (t.track o).1 ↔
      ∀ exchangeId, o.exchangeId = some exchangeId → t.clientId? exchangeId = some o.clientId := by
  constructor
  · intro hsame exchangeId hid
    rw [← hsame.entries exchangeId, clientId?_track, if_pos hid]
  · intro hknown
    have hentries : ∀ exchangeId, (t.track o).1.clientId? exchangeId = t.clientId? exchangeId := by
      intro exchangeId
      rw [clientId?_track]
      split
      · rename_i hid
        exact (hknown exchangeId hid).symm
      · rfl
    refine ⟨hentries, fun exchangeId => ?_⟩
    unfold getByExchangeId?
    rw [hentries]
    simp only [(sameOrders_of_refused h).records]

/-- **What becomes of a tracker that refuses an order.**  In every state and for every order that is
refused:

* records are looked up, counted and listed as before;
* the exchange id of the order, if it has one, leads to the order that was there, and every other
  exchange id leads to where it led;
* so that every lookup answers as before exactly if the order has no exchange id, or one that led to
  its client id already. -/
theorem kept_of_refused (h : (t.track o).2 = .error error) :
    t.SameOrders (t.track o).1 ∧
    (∀ exchangeId, (t.track o).1.clientId? exchangeId =
      if o.exchangeId = some exchangeId then some o.clientId else t.clientId? exchangeId) ∧
    (∀ exchangeId, (t.track o).1.getByExchangeId? exchangeId =
      if o.exchangeId = some exchangeId then t.get? o.clientId
      else t.getByExchangeId? exchangeId) ∧
    (t.SameIndex (t.track o).1 ↔ ∀ exchangeId, o.exchangeId = some exchangeId →
      t.clientId? exchangeId = some o.clientId) :=
  ⟨sameOrders_of_refused h, clientId?_track t o, getByExchangeId?_of_refused h,
    sameIndex_of_refused_iff h⟩

/-- An order that comes with an exchange id, under a client id that is taken. -/
def resubmitted (exchangeId : String) : InFlightOrder :=
  { submitted "c2" with exchangeId := some exchangeId }

/-- Of two orders one rests on the book.  The other is submitted again: without an exchange id every
lookup answers as before, and with the exchange id of the first the records do. -/
theorem kept_oneOnBook :
    let t := empty.run oneOnBook
    (t.track (submitted "c2")).2 = .error (.invalidOrder (.alreadyTracked "c2")) ∧
    t.SameOrders (t.track (submitted "c2")).1 ∧ t.SameIndex (t.track (submitted "c2")).1 ∧
    (t.track (resubmitted "e1")).2 = .error (.invalidOrder (.alreadyTracked "c2")) ∧
    t.SameOrders (t.track (resubmitted "e1")).1 ∧
    ((t.track (resubmitted "e1")).1).clientId? "e1" = some "c2" := by
  intro t
  have hplain : (t.track (submitted "c2")).2 = .error (.invalidOrder (.alreadyTracked "c2")) := rfl
  have hnamed : (t.track (resubmitted "e1")).2 = .error (.invalidOrder (.alreadyTracked "c2")) :=
    rfl
  obtain ⟨horders, _, _, hindex⟩ := kept_of_refused hplain
  obtain ⟨horders', hentries, _⟩ := kept_of_refused hnamed
  exact ⟨hplain, horders, hindex.mpr nofun, hnamed, horders', hentries "e1"⟩

/-- An order on the book is not found by its exchange id any more once another one was submitted
again with that id, and refused: the id leads to an order that has none. -/
theorem diverted_of_refused :
    let t := empty.run oneOnBook
    let t' := (t.track (resubmitted "e1")).1
    (∃ error, (t.track (resubmitted "e1")).2 = .error error) ∧
    t.clientId? "e1" = some "c1" ∧ t'.clientId? "e1" = some "c2" ∧
    (∃ o, t.getByExchangeId? "e1" = some o ∧ o.exchangeId = some "e1") ∧
    (∃ o, t'.getByExchangeId? "e1" = some o ∧ o.exchangeId = none) ∧ ¬ t.SameIndex t' := by
  refine ⟨⟨_, rfl⟩, rfl, rfl, ⟨_, rfl, rfl⟩, ⟨_, rfl, rfl⟩, ?_⟩
  intro hsame
  exact absurd (hsame.entries "e1") (by decide)

end SpotGateway.OrderTracker
