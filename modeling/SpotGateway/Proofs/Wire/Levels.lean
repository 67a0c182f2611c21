import Mathlib.Data.List.Forall2
import SpotGateway.Proofs.Outcome
import SpotGateway.Wire.Stream

/-!
# Changes to a book, entry by entry

A change to a book lists entries for bids and for asks, and each is to be a list that begins with a
price and an amount.  An entry that is a list of one element or of none is passed over; any other that
does not begin so makes an error of the event.

* `Stream.level?`, `Stream.isShort` — the level of an entry, and the entries that are passed over;
* `Stream.levelsOf?_eq_some_iff` — the levels of a list of entries;
* `Stream.eventOf_of_kind`, `Stream.eventOf_eq_some` — the event of a message, and all that has one;
* `Stream.Tells`, `Stream.eventOf_eq_depth_iff` — the change that a message tells;
* `Stream.Faithful`, `Stream.faithful_iff_noneShort`, `Stream.unfaithful_of_shortBid` — changes with a
  level for each entry, and one that lacks a level.
-/

set_option autoImplicit false

namespace SpotGateway.Stream

open Json

/-! ## Levels -/

/-- The level of an entry: it is a list that begins with a price and an amount. -/
def level? : Value → Option BookLevel
  | .array (price :: amount :: _) => do return ⟨← amount? price, ← amount? amount⟩
  | _ => none

/-- The entry is a list of fewer than two elements. -/
def isShort : Value → Bool
  | .array [] => true
  | .array [_] => true
  | _ => false

/-- The level is that of the entry. -/
def Reads (v : Value) (l : BookLevel) : Prop := level? v = some l

variable {v data message : Value} {items : List Value} {levels : List BookLevel} {m : SymbolMap}
  {update : DepthUpdate} {frame : String}

theorem level?_of_isShort (h : isShort v = true) : level? v = none := by
  unfold isShort at h
  split at h
  · rfl
  · rfl
  · cases h

theorem levelsOf?_cons (v : Value) (rest : List Value) : levelsOf? (v :: rest) =
    if isShort v then levelsOf? rest else do return (← level? v) :: (← levelsOf? rest) := by
  cases v with
  | array elements =>
    match elements with
    | [] => rfl
    | [_] => rfl
    | price :: amount :: _ =>
      simp only [levelsOf?, level?, isShort, Option.bind_eq_bind, Option.bind_assoc]
      rfl
  | _ => rfl

/-- Entries that are not short are read one by one, and all of them have to be levels. -/
theorem levelsOf?_eq_some_iff : levelsOf? items = some levels ↔
    List.Forall₂ Reads (items.filter fun v => !isShort v) levels := by
  induction items generalizing levels with
  | nil => simp [levelsOf?, eq_comm]
  | cons v rest ih =>
    rw [levelsOf?_cons]
    cases hshort : isShort v with
    | true => simpa [hshort] using ih
    | false =>
      have hkept : (v :: rest).filter (fun v => !isShort v) =
          v :: rest.filter fun v => !isShort v := List.filter_cons_of_pos (by rw [hshort]; rfl)
      rw [hkept, List.forall₂_cons_left_iff]
      simp only [Bool.false_eq_true, if_false, Option.bind_eq_bind, Option.bind_eq_some_iff,
        Option.pure_def, Option.some.injEq, ih, Reads]
      constructor
      · rintro ⟨l, hl, rest', hrest, rfl⟩
        exact ⟨l, rest', hl, hrest, rfl⟩
      · rintro ⟨l, rest', hl, hrest, rfl⟩
        exact ⟨l, hl, rest', hrest, rfl⟩

theorem Reads.isShort_eq {l : BookLevel} (h : Reads v l) : isShort v = false := by
  cases hshort : isShort v with
  | false => rfl
  | true =>
    rw [Reads, level?_of_isShort hshort] at h
    cases h

/-- If levels are those of the entries that are not short, then they are those of all entries exactly
if none is short. -/
theorem reads_iff_noneShort (h : List.Forall₂ Reads (items.filter fun v => !isShort v) levels) :
    List.Forall₂ Reads items levels ↔ ∀ v ∈ items, isShort v = false := by
  constructor
  · intro hreads
    exact ((List.forall₂_and_left items levels).mp
      (hreads.imp fun v l hl => ⟨hl.isShort_eq, hl⟩)).1
  · intro hlong
    rw [List.filter_eq_self.mpr fun v hv => by rw [hlong v hv]; rfl] at h
    exact h

/-! ## Changes -/

/-- The kind of the event. -/
def kind? (data : Value) : Option String := (data.get? "e").bind Value.string?

/-- The entries of a side: `b` for bids, `a` for asks. -/
def entries? (data : Value) (side : String) : Option (List Value) :=
  (data.get? side).bind Value.items?

/-- The levels are those of the entries of the side that are not short, in their order. -/
def TellsSide (data : Value) (side : String) (levels : List BookLevel) : Prop :=
  ∃ items, entries? data side = some items ∧
    List.Forall₂ Reads (items.filter fun v => !isShort v) levels

/-- The change is what the data tell. -/
structure Tells (data : Value) (m : SymbolMap) (update : DepthUpdate) : Prop where
  kind : kind? data = some Exchange.depthEvent
  pair : ∃ symbol, (data.get? "s").bind Value.string? = some symbol ∧
    m.pairOf symbol = .ok update.pair
  eventTime : (data.get? "E").bind Value.integer? = some update.eventTime
  firstId : (data.get? "U").bind Value.natural? = some update.firstId
  finalId : (data.get? "u").bind Value.natural? = some update.finalId
  bids : TellsSide data "b" update.bids
  asks : TellsSide data "a" update.asks

/-- There is a level for each entry of the side, in the same order. -/
def FaithfulSide (data : Value) (side : String) (levels : List BookLevel) : Prop :=
  ∃ items, entries? data side = some items ∧ List.Forall₂ Reads items levels

/-- There is a level for each entry of both sides. -/
structure Faithful (data : Value) (update : DepthUpdate) : Prop where
  bids : FaithfulSide data "b" update.bids
  asks : FaithfulSide data "a" update.asks

/-- The entry stands on one of the sides. -/
def Lists (data : Value) (v : Value) : Prop :=
  ∃ side ∈ ["b", "a"], ∃ items, entries? data side = some items ∧ v ∈ items

theorem tellsSide_iff {side : String} :
    TellsSide data side levels ↔ (entries? data side).bind levelsOf? = some levels := by
  simp only [TellsSide, Option.bind_eq_some_iff, levelsOf?_eq_some_iff]

theorem TellsSide.faithfulSide_iff {side : String} (h : TellsSide data side levels) :
    FaithfulSide data side levels ↔
      ∀ items, entries? data side = some items → ∀ v ∈ items, isShort v = false := by
  obtain ⟨items, hitems, hlevels⟩ := h
  simp only [FaithfulSide, hitems, Option.some.injEq, exists_eq_left', forall_eq']
  exact reads_iff_noneShort hlevels

/-- A change that is told is faithful exactly if no entry is short. -/
theorem Tells.faithful_iff (h : Tells data m update) :
    Faithful data update ↔ ∀ v, Lists data v → isShort v = false := by
  constructor
  · rintro ⟨hbids, hasks⟩ v ⟨side, hside, items, hitems, hv⟩
    rcases List.mem_pair.mp hside with rfl | rfl
    · exact h.bids.faithfulSide_iff.mp hbids items hitems v hv
    · exact h.asks.faithfulSide_iff.mp hasks items hitems v hv
  · intro hlong
    constructor
    · exact h.bids.faithfulSide_iff.mpr fun items hitems v hv =>
        hlong v ⟨"b", by decide, items, hitems, hv⟩
    · exact h.asks.faithfulSide_iff.mpr fun items hitems v hv =>
        hlong v ⟨"a", by decide, items, hitems, hv⟩

theorem TellsSide.exists_reads {side : String} (h : TellsSide data side levels)
    (hitems : entries? data side = some items) (hv : v ∈ items) (hlong : isShort v = false) :
    ∃ l, Reads v l := by
  obtain ⟨items', hitems', hreads⟩ := h
  cases hitems.symm.trans hitems'
  have hall := ((List.forall₂_and_left _ _).mp
    (hreads.imp fun v l hl => (⟨⟨l, hl⟩, hl⟩ : (∃ l, Reads v l) ∧ Reads v l))).1
  exact hall v (List.mem_filter.mpr ⟨hv, by rw [hlong]; rfl⟩)

/-- Entries of a change that is told have levels unless they are short. -/
theorem Tells.exists_reads (h : Tells data m update) (hv : Lists data v)
    (hlong : isShort v = false) : ∃ l, Reads v l := by
  obtain ⟨side, hside, items, hitems, hv⟩ := hv
  rcases List.mem_pair.mp hside with rfl | rfl
  · exact h.bids.exists_reads hitems hv hlong
  · exact h.asks.exists_reads hitems hv hlong

/-! ## Messages -/

theorem depth?_eq_some_iff {symbol : String} {event : String → StreamEvent} :
    depth? data = some (symbol, event) ↔
      ∃ eventTime firstId finalId bids asks,
        (data.get? "s").bind Value.string? = some symbol ∧
        (data.get? "E").bind Value.integer? = some eventTime ∧
        (data.get? "U").bind Value.natural? = some firstId ∧
        (data.get? "u").bind Value.natural? = some finalId ∧
        TellsSide data "b" bids ∧ TellsSide data "a" asks ∧
        event = fun pair => .depth { pair, eventTime, firstId, finalId, bids, asks } := by
  have hdepth : depth? data = do
      let symbol ← (data.get? "s").bind Value.string?
      let eventTime ← (data.get? "E").bind Value.integer?
      let firstId ← (data.get? "U").bind Value.natural?
      let finalId ← (data.get? "u").bind Value.natural?
      let bids ← (entries? data "b").bind levelsOf?
      let asks ← (entries? data "a").bind levelsOf?
      return (symbol, fun pair => .depth { pair, eventTime, firstId, finalId, bids, asks }) := by
    simp only [depth?, entries?, levels?, Option.bind_eq_bind, Option.bind_assoc]
  rw [hdepth]
  simp only [tellsSide_iff]
  -- what stands in the data does not matter from here on
  generalize (data.get? "s").bind Value.string? = symbol?
  generalize (data.get? "E").bind Value.integer? = eventTime?
  generalize (data.get? "U").bind Value.natural? = firstId?
  generalize (data.get? "u").bind Value.natural? = finalId?
  generalize (entries? data "b").bind levelsOf? = bids?
  generalize (entries? data "a").bind levelsOf? = asks?
  simp only [Option.bind_eq_bind, Option.bind_eq_some_iff, Option.pure_def, Option.some.injEq,
    Prod.mk.injEq]
  constructor
  · rintro ⟨_, rfl, eventTime, rfl, firstId, rfl, finalId, rfl, bids, rfl, asks, rfl, rfl, rfl⟩
    exact ⟨eventTime, firstId, finalId, bids, asks, rfl, rfl, rfl, rfl, rfl, rfl, rfl⟩
  · rintro ⟨eventTime, firstId, finalId, bids, asks, rfl, rfl, rfl, rfl, rfl, rfl, rfl⟩
    exact ⟨_, rfl, eventTime, rfl, firstId, rfl, finalId, rfl, bids, rfl, asks, rfl, rfl, rfl⟩

/-- A trade is no change to a book. -/
theorem event_of_trade? {symbol : String} {event : String → StreamEvent}
    (h : trade? data = some (symbol, event)) (pair : String) : ∃ t, event pair = .trade t := by
  simp only [trade?, Option.bind_eq_bind, Option.bind_eq_some_iff, Option.pure_def,
    Option.some.injEq, Prod.mk.injEq] at h
  aesop

theorem reader?_eq_some_iff {kind : String}
    {read : Value → Option (String × (String → StreamEvent))} : reader? kind = some read ↔
      kind = Exchange.depthEvent ∧ read = depth? ∨ kind = Exchange.tradeEvent ∧ read = trade? := by
  unfold reader?
  split
  · rename_i hdepth
    simp [hdepth, Exchange.depthEvent, Exchange.tradeEvent, eq_comm]
  split
  · rename_i htrade
    simp [htrade, Exchange.depthEvent, Exchange.tradeEvent, eq_comm]
  · rename_i hdepth htrade
    simp [hdepth, htrade]

/-- An event of a kind that is read is what its data tell, or an error. -/
theorem eventOf_of_kind (frame : String) (m : SymbolMap) {kind : String}
    {read : Value → Option (String × (String → StreamEvent))}
    (hkind : kind? (dataOf message) = some kind) (hread : reader? kind = some read) :
    eventOf message frame m = match read (dataOf message) with
      | none => .error (.parse (.event kind frame))
      | some (symbol, event) => (m.pairOf symbol).map fun pair => some (event pair) := by
  unfold kind? at hkind
  simp only [eventOf, hkind, hread]
  cases read (dataOf message) with
  | none => rfl
  | some told =>
    obtain ⟨symbol, event⟩ := told
    simp only
    cases m.pairOf symbol <;> rfl

/-- Every event is of a kind that is read, and its symbol is known. -/
theorem eventOf_eq_some {event : StreamEvent} (h : eventOf message frame m = .ok (some event)) :
    ∃ kind read symbol named pair, kind? (dataOf message) = some kind ∧ reader? kind = some read ∧
      read (dataOf message) = some (symbol, named) ∧ m.pairOf symbol = .ok pair ∧
      named pair = event := by
  cases hkind : kind? (dataOf message) with
  | none =>
    unfold kind? at hkind
    simp only [eventOf, hkind] at h
    cases h
  | some kind =>
    cases hread : reader? kind with
    | none =>
      unfold kind? at hkind
      simp only [eventOf, hkind, hread] at h
      cases h
    | some read =>
      rw [eventOf_of_kind frame m hkind hread] at h
      split at h
      · cases h
      · rename_i symbol named htold
        cases hpair : m.pairOf symbol with
        | error error =>
          rw [hpair] at h
          cases h
        | ok pair =>
          rw [hpair] at h
          cases h
          exact ⟨kind, read, symbol, named, pair, rfl, hread, htold, hpair, rfl⟩

/-- The change that a message tells. -/
theorem eventOf_eq_depth_iff :
    eventOf message frame m = .ok (some (.depth update)) ↔ Tells (dataOf message) m update := by
  constructor
  · intro h
    obtain ⟨kind, read, symbol, named, pair, hkind, hread, htold, hpair, hnamed⟩ := eventOf_eq_some h
    rcases reader?_eq_some_iff.mp hread with ⟨rfl, rfl⟩ | ⟨rfl, rfl⟩
    · obtain ⟨_, _, _, _, _, hsymbol, heventTime, hfirst, hfinal, hbids, hasks, rfl⟩ :=
        depth?_eq_some_iff.mp htold
      cases hnamed
      exact ⟨hkind, ⟨symbol, hsymbol, hpair⟩, heventTime, hfirst, hfinal, hbids, hasks⟩
    · obtain ⟨t, ht⟩ := event_of_trade? htold pair
      rw [ht] at hnamed
      cases hnamed
  · intro h
    obtain ⟨symbol, hsymbol, hpair⟩ := h.pair
    rw [eventOf_of_kind frame m h.kind rfl, depth?_eq_some_iff.mpr ⟨_, _, _, _, _, hsymbol, h.eventTime,
      h.firstId, h.finalId, h.bids, h.asks, rfl⟩]
    simp only [hpair]
    rfl

/-- A message of this kind tells a change, or it is an error. -/
theorem tells_or_error (frame : String) (m : SymbolMap)
    (hkind : kind? (dataOf message) = some Exchange.depthEvent) :
    (∃ update, Tells (dataOf message) m update) ∨
      ∃ error, eventOf message frame m = .error error := by
  have hevent := eventOf_of_kind frame m hkind rfl
  cases htold : depth? (dataOf message) with
  | none =>
    rw [htold] at hevent
    exact Or.inr ⟨_, hevent⟩
  | some told =>
    obtain ⟨symbol, named⟩ := told
    simp only [htold] at hevent
    cases hpair : m.pairOf symbol with
    | error error => exact Or.inr ⟨error, by rw [hevent, hpair]; rfl⟩
    | ok pair =>
      obtain ⟨_, _, _, _, _, hsymbol, heventTime, hfirst, hfinal, hbids, hasks, rfl⟩ :=
        depth?_eq_some_iff.mp htold
      exact Or.inl ⟨⟨pair, _, _, _, _, _⟩, hkind, ⟨symbol, hsymbol, hpair⟩, heventTime, hfirst,
        hfinal, hbids, hasks⟩

/-! ## Frames -/

theorem read_of_decode (h : decode Decoder.value frame = .ok message) :
    read frame m = eventOf message frame m := by
  rw [read, h]

/-- **A change to a book has a level for each entry exactly if no entry is short.**

* A change is read from a frame exactly if the frame can be decoded and the change is what its data
  tell: kind, symbol, time and ids, and on both sides the levels of the entries that are not short.
* A frame of this kind is read as a change, or it is an error.
* A change that is read has on both sides a level for each entry, in the same order and with the
  price and the amount that the entry begins with, exactly if no entry is a list of fewer than two
  elements.  Any other entry that does not begin with a price and an amount makes an error. -/
theorem faithful_iff_noneShort (frame : String) (m : SymbolMap) :
    (∀ update, read frame m = .ok (some (.depth update)) ↔
      ∃ message, decode Decoder.value frame = .ok message ∧ Tells (dataOf message) m update) ∧
    ∀ message, decode Decoder.value frame = .ok message →
      kind? (dataOf message) = some Exchange.depthEvent →
      ((∃ update, read frame m = .ok (some (.depth update))) ∨
        ∃ error, read frame m = .error error) ∧
      (∀ update, read frame m = .ok (some (.depth update)) →
        (Faithful (dataOf message) update ↔
          ∀ v, Lists (dataOf message) v → isShort v = false)) ∧
      ((∃ v, Lists (dataOf message) v ∧ level? v = none ∧ isShort v = false) →
        ∃ error, read frame m = .error error) := by
  refine ⟨fun update => ?_, fun message hdecoded hkind => ?_⟩
  · constructor
    · intro h
      cases hdecoded : decode Decoder.value frame with
      | error failure =>
        rw [read, hdecoded] at h
        cases h
      | ok message =>
        rw [read_of_decode hdecoded] at h
        exact ⟨message, rfl, eventOf_eq_depth_iff.mp h⟩
    · rintro ⟨message, hdecoded, htells⟩
      rw [read_of_decode hdecoded]
      exact eventOf_eq_depth_iff.mpr htells
  · simp only [read_of_decode hdecoded, eventOf_eq_depth_iff]
    refine ⟨tells_or_error frame m hkind, fun update htells => htells.faithful_iff, ?_⟩
    rintro ⟨v, hv, hnone, hlong⟩
    rcases tells_or_error frame m hkind with ⟨update, htells⟩ | herror
    · obtain ⟨l, hl⟩ := htells.exists_reads hv hlong
      rw [Reads, hnone] at hl
      cases hl
    · exact herror

/-- Changes to the book of one pair, with the given bids and asks. -/
def changeFrame (bids asks : String) : String :=
  "\x7b\"e\":\"depthUpdate\",\"E\":1,\"s\":\"BTCUSDT\",\"U\":1,\"u\":2,\"b\":" ++ bids ++
    ",\"a\":" ++ asks ++ "\x7d"

/-- The map that knows this pair. -/
def btcOnly : SymbolMap := ⟨[⟨"BTC-USDT", "BTCUSDT", some "TRADING"⟩]⟩

/-- An entry for bids and one for asks, which has an element more than it needs. -/
def longFrame : String := changeFrame "[[\"50000.00\",\"1\"]]" "[[\"50001\",2,null]]"

/-- Both are read. -/
theorem faithful_longFrame : ∃ (message : Value) (bid bidAmount ask askAmount : Decimal),
    decode Decoder.value longFrame = .ok message ∧
    Decimal.ofText? "50000.00" = some bid ∧ Decimal.ofText? "1" = some bidAmount ∧
    Decimal.ofText? "50001" = some ask ∧ Decimal.ofText? "2" = some askAmount ∧
    read longFrame btcOnly =
      .ok (some (.depth ⟨"BTC-USDT", 1, 1, 2, [⟨bid, bidAmount⟩], [⟨ask, askAmount⟩]⟩)) ∧
    Faithful (dataOf message) ⟨"BTC-USDT", 1, 1, 2, [⟨bid, bidAmount⟩], [⟨ask, askAmount⟩]⟩ := by
  have hread : (do
      let message ← (decode Decoder.value longFrame).toOption
      let bid ← Decimal.ofText? "50000.00"
      let bidAmount ← Decimal.ofText? "1"
      let ask ← Decimal.ofText? "50001"
      let askAmount ← Decimal.ofText? "2"
      let event ← (read longFrame btcOnly).toOption
      let bids ← entries? (dataOf message) "b"
      let asks ← entries? (dataOf message) "a"
      return (decide (event = some (.depth
          ⟨"BTC-USDT", 1, 1, 2, [⟨bid, bidAmount⟩], [⟨ask, askAmount⟩]⟩)),
        kind? (dataOf message), (bids ++ asks).all fun v => !isShort v)) =
      some (true, some Exchange.depthEvent, true) := by decide +kernel
  simp only [Option.bind_eq_bind, Option.bind_eq_some_iff, toOption_eq_some_iff, Option.pure_def,
    Option.some.injEq, Prod.mk.injEq, decide_eq_true_eq, List.all_eq_true, Bool.not_eq_true'] at hread
  obtain ⟨message, hdecoded, bid, hbid, bidAmount, hbidAmount, ask, hask, askAmount, haskAmount,
    event, hread, bids, hbids, asks, hasks, rfl, hkind, hlong⟩ := hread
  refine ⟨message, bid, bidAmount, ask, askAmount, hdecoded, hbid, hbidAmount, hask, haskAmount,
    hread, ?_⟩
  refine (((faithful_iff_noneShort longFrame btcOnly).2 message hdecoded hkind).2.1 _ hread).mpr ?_
  rintro v ⟨side, hside, items, hitems, hv⟩
  rcases List.mem_pair.mp hside with rfl | rfl
  · cases hbids.symm.trans hitems
    exact hlong v (List.mem_append_left asks hv)
  · cases hasks.symm.trans hitems
    exact hlong v (List.mem_append_right bids hv)

/-- Two entries for bids, of which the first has no amount. -/
def shortFrame : String := changeFrame "[[\"50000.00\"],[\"49999.00\",\"0\"]]" "[]"

/-- A change with one bid is read, and the entry without an amount is lost. -/
theorem unfaithful_of_shortBid : ∃ (message : Value) (price amount : Decimal),
    decode Decoder.value shortFrame = .ok message ∧
    kind? (dataOf message) = some Exchange.depthEvent ∧
    (∃ v, Lists (dataOf message) v ∧ level? v = none) ∧
    read shortFrame btcOnly = .ok (some (.depth ⟨"BTC-USDT", 1, 1, 2, [⟨price, amount⟩], []⟩)) ∧
    ¬ Faithful (dataOf message) ⟨"BTC-USDT", 1, 1, 2, [⟨price, amount⟩], []⟩ := by
  have hread : (do
      let message ← (decode Decoder.value shortFrame).toOption
      let price ← Decimal.ofText? "49999.00"
      let amount ← Decimal.ofText? "0"
      let event ← (read shortFrame btcOnly).toOption
      let bids ← entries? (dataOf message) "b"
      return (decide (event = some (.depth ⟨"BTC-USDT", 1, 1, 2, [⟨price, amount⟩], []⟩)),
        kind? (dataOf message), bids.map isShort)) =
      some (true, some Exchange.depthEvent, [true, false]) := by decide +kernel
  simp only [Option.bind_eq_bind, Option.bind_eq_some_iff, toOption_eq_some_iff, Option.pure_def,
    Option.some.injEq, Prod.mk.injEq, decide_eq_true_eq] at hread
  obtain ⟨message, hdecoded, price, _, amount, _, event, hread, bids, hbids, rfl, hkind, hshort⟩ :=
    hread
  obtain ⟨v, hv, hvshort⟩ : ∃ v ∈ bids, isShort v = true := by
    rw [← List.mem_map, hshort]
    exact List.mem_cons_self
  have hlisted : Lists (dataOf message) v := ⟨"b", by decide, bids, hbids, hv⟩
  refine ⟨message, price, amount, hdecoded, hkind, ⟨v, hlisted, level?_of_isShort hvshort⟩, hread, ?_⟩
  intro hfaithful
  rw [read_of_decode hdecoded] at hread
  have hlong := (eventOf_eq_depth_iff.mp hread).faithful_iff.mp hfaithful v hlisted
  rw [hvshort] at hlong
  cases hlong

end SpotGateway.Stream
