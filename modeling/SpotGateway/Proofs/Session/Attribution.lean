import SpotGateway.Proofs.Session.Prices
import SpotGateway.Proofs.Session.Requests

/-!
# Under which pair a reply is answered

Four calls answer with what a reply tells about markets, and the entries of the reply name symbols.
Prices are chosen or translated by these.  The quote of a book and the executions of a pair are given
under the pair that was asked for, whatever symbols the reply names.

* `Answer.pairs`, `Session.Built`, `SymbolMap.Attributes` — the pairs that an answer is given under,
  the symbols of the entries that it was built from, and that the ones are the names of the others;
* `Session.fillsOf_eq_ok_iff` — executions, one by one;
* `Session.finish_of_bookTicker`, `Session.finish_of_trades` — how the calls are finished;
* `Session.attributed_of_finish`, `Session.mislabeled_of_otherQuote` — which answers are given under
  the right pairs, and one that is not.
-/

set_option autoImplicit false

namespace SpotGateway

/-- The pairs that an answer about markets is given under, piece by piece. -/
def Answer.pairs : Answer → List String
  | .ticker t => [t.pair]
  | .tickers ts => ts.map Ticker.pair
  | .book t => [t.pair]
  | .fills fs => fs.map Fill.pair
  | _ => []

/-- Each piece of the answer is given under the pair of the symbol. -/
def SymbolMap.Attributes (m : SymbolMap) (answer : Answer) (symbols : List String) : Prop :=
  List.Forall₂ (fun pair symbol => m.symbolOf pair = .ok symbol) answer.pairs symbols

namespace Session

/-- The side of the execution can be told. -/
def knowsSide (s : Session) (e : TradeEntry) : Bool := (s.sideOf e).isSome

/-- The execution as it is answered under the name of a pair. -/
def Fills (s : Session) (pair : String) (e : TradeEntry) (f : Fill) : Prop :=
  ∃ side, s.sideOf e = some side ∧ fillOf pair side e = .ok f

/-- The answer was built from entries of the body that name these symbols, each piece from one. -/
inductive Built (s : Session) (body : String) : Answer → List String → Prop where
  | ticker (listing : PriceListing) (entry : SymbolPrice) (t : Ticker)
      (decoded : Json.decode PriceListing.decoder body = .ok listing)
      (among : entry ∈ listing.prices) (priced : t.price = entry.price) :
      Built s body (.ticker t) [entry.symbol]
  | tickers (listing : PriceListing) (kept : List SymbolPrice) (ts : List Ticker)
      (decoded : Json.decode PriceListing.decoder body = .ok listing)
      (among : kept.Sublist listing.prices)
      (priced : List.Forall₂ (fun entry t => t.price = entry.price) kept ts) :
      Built s body (.tickers ts) (kept.map SymbolPrice.symbol)
  | book (quote : BookQuote) (pair : String)
      (decoded : Json.decode BookQuote.decoder body = .ok quote) :
      Built s body (.book (quote.ticker pair)) [quote.symbol]
  | fills (entries : List TradeEntry) (pair : String) (fs : List Fill)
      (decoded : Json.decode (Json.Decoder.list TradeEntry.decoder) body = .ok entries)
      (told : List.Forall₂ (s.Fills pair) (entries.filter s.knowsSide) fs) :
      Built s body (.fills fs) ((entries.filter s.knowsSide).map TradeEntry.symbol)

variable {s s' : Session} {m : SymbolMap} {entries : List SymbolEntry}
  {pair symbol body : String} {answer : Answer} {p : Pending} {response : Http.Response}

/-- The entries of a quote, or of executions, that an answer was built from are told by the body. -/
theorem Built.unique {symbols symbols' : List String} (h : s.Built body answer symbols)
    (h' : s.Built body answer symbols')
    (hanswer : (∃ t, answer = .book t) ∨ ∃ fs, answer = .fills fs) : symbols' = symbols := by
  cases h with
  | ticker => simp at hanswer
  | tickers => simp at hanswer
  | book quote pair decoded =>
    generalize hbook : Answer.book (quote.ticker pair) = answer at h'
    cases h' with
    | book quote' pair' decoded' =>
      rw [decoded] at decoded'
      cases decoded'
      rfl
    | _ => cases hbook
  | fills entries pair fs decoded told =>
    cases h' with
    | fills entries' pair' _ decoded' told' =>
      rw [decoded] at decoded'
      cases decoded'
      rfl

/-! ## Executions -/

/-- An execution is answered under the pair that was asked for. -/
theorem pair_fillOf {side : Side} {e : TradeEntry} {f : Fill} (h : fillOf pair side e = .ok f) :
    f.pair = pair := by
  unfold fillOf at h
  split at h
  · cases h
  · cases h
    rfl

theorem map_pair_of_fills {kept : List TradeEntry} {fs : List Fill}
    (h : List.Forall₂ (s.Fills pair) kept fs) : fs.map Fill.pair = kept.map fun _ => pair := by
  induction h with
  | nil => rfl
  | cons hfill _ ih =>
    obtain ⟨_, _, hfill⟩ := hfill
    rw [List.map_cons, List.map_cons, pair_fillOf hfill, ih]

/-- The executions that are answered are those whose sides can be told, in their order. -/
theorem fillsOf_eq_ok_iff {es : List TradeEntry} {fs : List Fill} :
    s.fillsOf pair es = .ok fs ↔ List.Forall₂ (s.Fills pair) (es.filter s.knowsSide) fs := by
  induction es generalizing fs with
  | nil => simp [fillsOf, eq_comm]
  | cons e rest ih =>
    cases hside : s.sideOf e with
    | none => simpa [fillsOf, knowsSide, hside] using ih
    | some side =>
      have hknown : s.knowsSide e = true := by simp [knowsSide, hside]
      rw [List.filter_cons_of_pos hknown, List.forall₂_cons_left_iff]
      simp only [fillsOf, hside, bind_eq_ok, pure_eq_ok, Fills, ih, Option.some.injEq,
        exists_eq_left']
      constructor
      · rintro ⟨f, hf, fs', hrest, rfl⟩
        exact ⟨f, fs', hf, hrest, rfl⟩
      · rintro ⟨f, fs', hf, hrest, rfl⟩
        exact ⟨f, hf, fs', hrest, rfl⟩

/-! ## The other two calls -/

/-- A quote is answered under the pair that was asked for. -/
theorem finish_of_bookTicker (s : Session) (now : Readings)
    (hp : p.errand = .bookTicker pair symbol) (h : response.isSuccess = true) :
    ∃ result, s.finish now p (.reply response) = .ok (s.record p.reservation, result) ∧
      ∀ answer, result = .ok answer ↔ ∃ quote,
        Json.decode BookQuote.decoder response.body = .ok quote ∧
        answer = .book (quote.ticker pair) :=
  ⟨_, by rw [finish_of_success s now p h, hp]; rfl, fun _ => given_eq_ok_iff⟩

/-- And so are executions. -/
theorem finish_of_trades (s : Session) (now : Readings)
    (hp : p.errand = .trades pair symbol) (h : response.isSuccess = true) :
    ∃ result, s.finish now p (.reply response) = .ok (s.record p.reservation, result) ∧
      ∀ answer, result = .ok answer ↔ ∃ es fs,
        Json.decode (Json.Decoder.list TradeEntry.decoder) response.body = .ok es ∧
        s.fillsOf pair es = .ok fs ∧ answer = .fills fs := by
  refine ⟨_, by rw [finish_of_success s now p h, hp]; rfl, fun answer => ?_⟩
  -- the budget is handed back before the executions are told apart, and no side depends on it
  have hsides : ∀ e, (s.record p.reservation).sideOf e = s.sideOf e := fun _ => rfl
  simp only [← fillsOf_congr hsides pair]
  exact made_eq_ok_iff

/-! ## Answers and their pairs -/

/-- All prices are given under the pairs of their symbols. -/
theorem attributes_tickersOf (hm : SymbolMap.build entries = .ok m) (listing : PriceListing) :
    ∃ kept : List SymbolPrice, kept.Sublist listing.prices ∧
      List.Forall₂ (fun entry t => t.price = entry.price) kept (tickersOf m listing) ∧
      m.Attributes (.tickers (tickersOf m listing)) (kept.map SymbolPrice.symbol) := by
  have hquotes := tickersOf_eq_iff.mp (rfl : tickersOf m listing = _)
  refine ⟨_, List.filter_sublist, hquotes.imp fun _ _ h => h.price, ?_⟩
  rw [SymbolMap.Attributes, Answer.pairs, List.forall₂_map_left_iff, List.forall₂_map_right_iff]
  exact hquotes.flip.imp fun _ _ h => (SymbolMap.symbolOf_eq_ok_iff_pairOf hm).mpr h.pair

/-- The price of one pair is that of an entry with its symbol. -/
theorem tickerOf_eq_ok {listing : PriceListing} {t : Ticker}
    (h : tickerOf pair symbol listing = .ok t) : t.pair = pair ∧
      ∃ entry ∈ listing.prices, entry.symbol = symbol ∧ t.price = entry.price := by
  unfold tickerOf at h
  split at h
  · rename_i entry hfound
    cases h
    exact ⟨rfl, entry, List.mem_of_find?_eq_some hfound, by simpa using List.find?_some hfound, rfl⟩
  · cases h

/-- An answer under one pair is right if all entries that it was built from name its symbol. -/
theorem attributes_iff_of_pair {symbols : List String} (hsymbol : m.symbolOf pair = .ok symbol)
    (hpairs : answer.pairs = symbols.map fun _ => pair) :
    m.Attributes answer symbols ↔ ∀ name ∈ symbols, name = symbol := by
  rw [SymbolMap.Attributes, hpairs, List.forall₂_map_left_iff, List.forall₂_same]
  simp only [hsymbol, Except.ok.injEq, eq_comm]

/-- An answer meets the condition under which a call is answered. -/
theorem meets_of_finish {P : Answer → Prop} {s₁ : Session}
    {outcome : Checked (Session × Except GatewayError Answer)}
    (h : ∃ result, outcome = .ok (s₁, result) ∧ ∀ answer, result = .ok answer ↔ P answer)
    (hanswer : outcome = .ok (s', .ok answer)) : P answer := by
  obtain ⟨result, hresult, hiff⟩ := h
  rw [hresult] at hanswer
  cases hanswer
  exact (hiff _).mp rfl

/-- A quote, or executions, built under one pair. -/
theorem named_of_built {symbols : List String} (hsymbol : m.symbolOf pair = .ok symbol)
    (hbuilt : s.Built body answer symbols)
    (hanswer : (∃ t, answer = .book t) ∨ ∃ fs, answer = .fills fs)
    (hpairs : answer.pairs = symbols.map fun _ => pair) :
    ∃ symbol symbols, m.symbolOf pair = .ok symbol ∧
      (∀ symbols', s.Built body answer symbols' ↔ symbols' = symbols) ∧
      (m.Attributes answer symbols ↔ ∀ name ∈ symbols, name = symbol) := by
  refine ⟨symbol, symbols, hsymbol, fun symbols' => ⟨fun h' => hbuilt.unique h' hanswer, ?_⟩,
    attributes_iff_of_pair hsymbol hpairs⟩
  rintro rfl
  exact hbuilt

/-- **Prices are given under the pairs of their symbols; quotes and executions under the pair that was
asked for, whatever symbols they name.**  Let a call be answered from a successful reply.  A call that
asks for a pair goes by the symbols that are known when it is sent, and all prices go by those that
are known when the reply comes, whatever catalogue they are of.

* A call that asks for a pair is answered under this pair.
* Each price, of one pair or of all, was built from an entry of the reply whose symbol is the pair's.
* The entries from which a quote or executions were built are told by the reply.  The answer is right
  exactly if all of them name the symbol of the pair. -/
theorem attributed_of_finish {s s₀ s₁ s' : Session} {now later : Readings} {expired : Bool}
    {call : Call} {p : Pending} {response : Http.Response} {answer : Answer}
    (hm : SymbolMap.build entries = .ok s₁.symbols.current)
    (hstart : s.start now expired call = .ok (s₀, .ok p)) (hsuccess : response.isSuccess = true)
    (hfinish : s₁.finish later p (.reply response) = .ok (s', .ok answer)) :
    (∀ pair, call.pair? = some pair → ∀ name ∈ answer.pairs, name = pair) ∧
    (∀ pair, call = .ticker pair → ∃ symbols,
      s₁.Built response.body answer symbols ∧ s.symbols.current.Attributes answer symbols) ∧
    (call = .allPrices → ∃ symbols,
      s₁.Built response.body answer symbols ∧ s₁.symbols.current.Attributes answer symbols) ∧
    ∀ pair, call = .bookTicker pair ∨ call = .trades pair →
      ∃ symbol symbols, s.symbols.current.symbolOf pair = .ok symbol ∧
        (∀ symbols', s₁.Built response.body answer symbols' ↔ symbols' = symbols) ∧
        (s.symbols.current.Attributes answer symbols ↔ ∀ name ∈ symbols, name = symbol) := by
  have planned := plan_of_start hstart
  cases call with
  | ticker pair =>
    obtain ⟨symbol, hsymbol, herrand⟩ := withSymbol_eq_ok.mp (Except.ok.inj planned)
    obtain ⟨listing, t, hdecoded, ht, rfl⟩ :=
      meets_of_finish (s₁.finish_of_ticker later herrand hsuccess) hfinish
    obtain ⟨rfl, entry, hamong, rfl, hpriced⟩ := tickerOf_eq_ok ht
    refine ⟨?_, ?_, by simp, by simp⟩
    · simp [Call.pair?, Answer.pairs]
    · rintro _ h
      cases h
      exact ⟨_, .ticker listing entry t hdecoded hamong hpriced, .cons hsymbol .nil⟩
  | allPrices =>
    have herrand : p.errand = .allPrices := (Except.ok.inj (Except.ok.inj planned)).symm
    obtain ⟨listing, hdecoded, rfl⟩ :=
      meets_of_finish (s₁.finish_of_allPrices later herrand hsuccess) hfinish
    obtain ⟨kept, hamong, hpriced, hright⟩ := attributes_tickersOf hm listing
    exact ⟨by simp [Call.pair?], by simp,
      fun _ => ⟨_, .tickers listing kept _ hdecoded hamong hpriced, hright⟩, by simp⟩
  | bookTicker pair =>
    obtain ⟨symbol, hsymbol, herrand⟩ := withSymbol_eq_ok.mp (Except.ok.inj planned)
    obtain ⟨quote, hdecoded, rfl⟩ :=
      meets_of_finish (s₁.finish_of_bookTicker later herrand hsuccess) hfinish
    refine ⟨?_, by simp, by simp, ?_⟩
    · simp [Call.pair?, Answer.pairs, BookQuote.ticker]
    · rintro _ (h | h) <;> cases h
      exact named_of_built hsymbol (.book quote _ hdecoded) (Or.inl ⟨_, rfl⟩) rfl
  | trades pair =>
    obtain ⟨symbol, hsymbol, herrand⟩ := withSymbol_eq_ok.mp (Except.ok.inj planned)
    obtain ⟨es, fs, hdecoded, hfills, rfl⟩ :=
      meets_of_finish (s₁.finish_of_trades later herrand hsuccess) hfinish
    have htold := fillsOf_eq_ok_iff.mp hfills
    have hpairs : (Answer.fills fs).pairs =
        ((es.filter s₁.knowsSide).map TradeEntry.symbol).map fun _ => pair := by
      rw [Answer.pairs, map_pair_of_fills htold, List.map_map]
      rfl
    refine ⟨?_, by simp, by simp, ?_⟩
    · rintro _ h name hname
      cases h
      rw [hpairs] at hname
      obtain ⟨_, _, rfl⟩ := List.mem_map.mp hname
      rfl
    · rintro _ (h | h) <;> cases h
      exact named_of_built hsymbol (.fills es _ fs hdecoded htold) (Or.inr ⟨_, rfl⟩) hpairs
  | _ => exact ⟨by simp [Call.pair?], by simp, by simp, by simp⟩

/-- The session has learnt of two pairs. -/
def learnTwoPairs (s : Session) : Session :=
  (s.takeExchangeInfo ⟨[⟨"ETH/XLM", none, "ETH", "XLM", none, none, none, none⟩,
    ⟨"BTC/XLM", none, "BTC", "XLM", none, none, none, none⟩]⟩).1

/-- A quote of the symbol. -/
def quoteReply (symbol : String) : Http.Response :=
  ⟨200, "\x7b\"symbol\":\"" ++ symbol ++ "\",\"bidPrice\":\"100\",\"bidQty\":\"1\"," ++
    "\"askPrice\":\"101\",\"askQty\":\"2\"\x7d"⟩

theorem quoteReply_isSuccess (symbol : String) : (quoteReply symbol).isSuccess = true := rfl

/-- The quote of a pair can be asked for. -/
theorem quote_sent : ∃ s s₀ p, Session.create .default ⟨"key", "secret", none⟩ = .ok s ∧
    SymbolMap.build [⟨"ETH/XLM", "ETH", "XLM", none⟩, ⟨"BTC/XLM", "BTC", "XLM", none⟩] =
      .ok s₀.symbols.current ∧
    s.learnTwoPairs.start (.still ⟨0, false⟩) false (.bookTicker "ETH-XLM") = .ok (s₀, .ok p) ∧
    s.learnTwoPairs.symbols.current.symbolOf "ETH-XLM" = .ok "ETH/XLM" ∧
    s.learnTwoPairs.symbols.current.symbolOf "BTC-XLM" = .ok "BTC/XLM" ∧
    p.errand = .bookTicker "ETH-XLM" "ETH/XLM" :=
  ⟨_, _, _, rfl, rfl, rfl, rfl, rfl, rfl⟩

/-- If the exchange answers with the quote of this pair, the answer is right. -/
theorem attributed_ownQuote : ∃ (s s₀ s₁ : Session) (p : Pending) (quote : BookQuote),
    Session.create .default ⟨"key", "secret", none⟩ = .ok s ∧
    s.learnTwoPairs.start (.still ⟨0, false⟩) false (.bookTicker "ETH-XLM") = .ok (s₀, .ok p) ∧
    s₀.finish (.still ⟨0, false⟩) p (.reply (quoteReply "ETH/XLM")) =
      .ok (s₁, .ok (.book (quote.ticker "ETH-XLM"))) ∧
    s.learnTwoPairs.symbols.current.Attributes (.book (quote.ticker "ETH-XLM")) ["ETH/XLM"] := by
  obtain ⟨s, s₀, p, hs, hbuild, hstart, hsymbol, _, herrand⟩ := quote_sent
  have hquote : (do
      let quote ← (Json.decode BookQuote.decoder (quoteReply "ETH/XLM").body).toOption
      return quote.symbol) = some "ETH/XLM" := by decide +kernel
  simp only [Option.bind_eq_bind, Option.bind_eq_some_iff, toOption_eq_some_iff, Option.pure_def,
    Option.some.injEq] at hquote
  obtain ⟨quote, hdecoded, hnamed⟩ := hquote
  obtain ⟨result, hfinish, hiff⟩ := s₀.finish_of_bookTicker (.still ⟨0, false⟩) herrand
    (quoteReply_isSuccess "ETH/XLM")
  rw [(hiff _).mpr ⟨quote, hdecoded, rfl⟩] at hfinish
  obtain ⟨_, _, _, hright⟩ :=
    attributed_of_finish hbuild hstart (quoteReply_isSuccess "ETH/XLM") hfinish
  obtain ⟨symbol, symbols, hsymbol', hbuilt, hright⟩ := hright "ETH-XLM" (Or.inl rfl)
  rw [hsymbol] at hsymbol'
  cases hsymbol'
  have hnames := (hbuilt _).mp (.book quote "ETH-XLM" hdecoded)
  rw [hnamed] at hnames
  rw [← hnames] at hright
  exact ⟨s, s₀, _, p, quote, hs, hstart, hfinish, hright.mpr (by simp)⟩

/-- If it answers with the quote of the other pair, this is answered under the pair that was asked for
all the same. -/
theorem mislabeled_of_otherQuote : ∃ s s₀ s₁ p t,
    Session.create .default ⟨"key", "secret", none⟩ = .ok s ∧
    s.learnTwoPairs.symbols.current.symbolOf "ETH-XLM" = .ok "ETH/XLM" ∧
    s.learnTwoPairs.symbols.current.symbolOf "BTC-XLM" = .ok "BTC/XLM" ∧
    s.learnTwoPairs.start (.still ⟨0, false⟩) false (.bookTicker "ETH-XLM") = .ok (s₀, .ok p) ∧
    s₀.finish (.still ⟨0, false⟩) p (.reply (quoteReply "BTC/XLM")) = .ok (s₁, .ok (.book t)) ∧
    t.pair = "ETH-XLM" ∧
    (∀ symbols, s₀.Built (quoteReply "BTC/XLM").body (.book t) symbols ↔ symbols = ["BTC/XLM"]) ∧
    ¬ s.learnTwoPairs.symbols.current.Attributes (.book t) ["BTC/XLM"] := by
  obtain ⟨s, s₀, p, hs, _, hstart, hsymbol, hother, herrand⟩ := quote_sent
  have hquote : (do
      let quote ← (Json.decode BookQuote.decoder (quoteReply "BTC/XLM").body).toOption
      return quote.symbol) = some "BTC/XLM" := by decide +kernel
  simp only [Option.bind_eq_bind, Option.bind_eq_some_iff, toOption_eq_some_iff, Option.pure_def,
    Option.some.injEq] at hquote
  obtain ⟨quote, hdecoded, hnamed⟩ := hquote
  obtain ⟨result, hfinish, hiff⟩ := s₀.finish_of_bookTicker (.still ⟨0, false⟩) herrand
    (quoteReply_isSuccess "BTC/XLM")
  rw [(hiff _).mpr ⟨quote, hdecoded, rfl⟩] at hfinish
  have hbuilt : s₀.Built (quoteReply "BTC/XLM").body (.book (quote.ticker "ETH-XLM"))
      [quote.symbol] := .book quote "ETH-XLM" hdecoded
  rw [hnamed] at hbuilt
  refine ⟨s, s₀, _, p, _, hs, hsymbol, hother, hstart, hfinish, rfl, fun symbols => ⟨?_, ?_⟩, ?_⟩
  · exact fun h => hbuilt.unique h (Or.inl ⟨_, rfl⟩)
  · rintro rfl
    exact hbuilt
  · rw [attributes_iff_of_pair hsymbol rfl]
    simp

end Session

end SpotGateway
