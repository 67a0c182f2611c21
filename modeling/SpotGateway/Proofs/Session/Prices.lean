import Mathlib.Data.List.Forall2
import SpotGateway.Proofs.Session.Markets

/-!
# The price of one pair and the prices of all

One call looks for the symbol of a pair among the prices of a reply, the other translates all their
symbols to pairs.  Pairs and symbols are one to one in every session, so both find the same.

* `SymbolMap.Quotes`, `Session.tickersOf_eq_iff` — prices under the names of pairs, one by one;
* `Session.find?_tickersOf` — the first of them for a pair;
* `Session.start_of_ticker` — both calls are sent alike;
* `Session.finish_of_success`, `Session.finish_of_ticker`, `Session.finish_of_allPrices` — how they
  are finished;
* `Dialogue.prices_agree` — what they answer.
-/

set_option autoImplicit false

namespace SpotGateway

/-- In a list that is mapped as far as the function goes, each entry that has an image has its place
by it. -/
theorem forall₂_filterMap {α β : Type} (f : α → Option β) (xs : List α) :
    List.Forall₂ (fun x y => f x = some y) (xs.filter fun x => (f x).isSome) (xs.filterMap f) := by
  induction xs with
  | nil => exact .nil
  | cons x rest ih =>
    cases hx : f x with
    | none => simpa [hx] using ih
    | some y => simpa [hx] using ih

/-! ## Prices under the names of pairs -/

/-- The ticker is the price of an entry under the pair of its symbol. -/
structure SymbolMap.Quotes (m : SymbolMap) (p : SymbolPrice) (t : Ticker) : Prop where
  pair : m.pairOf p.symbol = .ok t.pair
  price : t.price = p.price

theorem SymbolMap.Quotes.rightUnique {m : SymbolMap} : Relator.RightUnique m.Quotes := by
  intro p t t' h h'
  have hpair : t.pair = t'.pair := Except.ok.inj (h.pair.symm.trans h'.pair)
  have hprice : t.price = t'.price := h.price.trans h'.price.symm
  cases t
  cases t'
  cases hpair
  cases hprice
  rfl

/-- The symbol of the price is known. -/
def SymbolMap.knows (m : SymbolMap) (p : SymbolPrice) : Bool := (m.pairOf p.symbol).isOk

/-- The price under the name of its pair. -/
def SymbolPrice.ticker? (m : SymbolMap) (p : SymbolPrice) : Option Ticker :=
  (m.ofSymbol? p.symbol).map fun l => ⟨l.pair, p.price⟩

namespace SymbolPrice

variable {m : SymbolMap} {p : SymbolPrice} {t : Ticker}

theorem ticker?_eq_some_iff : p.ticker? m = some t ↔ m.Quotes p t := by
  rw [ticker?, Option.map_eq_some_iff]
  constructor
  · rintro ⟨l, hl, rfl⟩
    exact ⟨SymbolMap.pairOf_eq_ok_iff_ofSymbol?.mpr ⟨l, hl, rfl⟩, rfl⟩
  · rintro ⟨hpair, hprice⟩
    obtain ⟨l, hl, hname⟩ := SymbolMap.pairOf_eq_ok_iff_ofSymbol?.mp hpair
    exact ⟨l, hl, by rw [hname, ← hprice]⟩

theorem isSome_ticker? : (p.ticker? m).isSome = m.knows p := by
  unfold ticker? SymbolMap.knows SymbolMap.pairOf
  cases m.ofSymbol? p.symbol <;> rfl

end SymbolPrice

namespace Session

variable {s s' : Session} {m : SymbolMap} {entries : List SymbolEntry}
  {pair symbol : String} {listing : PriceListing}

/-- The prices that are answered are those whose symbols are known, in their order. -/
theorem tickersOf_eq_iff {ts : List Ticker} : tickersOf m listing = ts ↔
    List.Forall₂ m.Quotes (listing.prices.filter m.knows) ts := by
  have hquotes : List.Forall₂ m.Quotes (listing.prices.filter m.knows) (tickersOf m listing) := by
    have h := forall₂_filterMap (SymbolPrice.ticker? m) listing.prices
    simp only [SymbolPrice.isSome_ticker?] at h
    exact h.imp fun p t ht => SymbolPrice.ticker?_eq_some_iff.mp ht
  constructor
  · rintro rfl
    exact hquotes
  · exact fun h => SymbolMap.Quotes.rightUnique.forall₂ hquotes h

/-- The first price that is answered for a pair is the first one of its symbol. -/
theorem find?_tickersOf (hm : SymbolMap.build entries = .ok m) (hsymbol : m.symbolOf pair = .ok symbol)
    (listing : PriceListing) :
    (tickersOf m listing).find? (fun t => t.pair = pair) =
      (listing.prices.find? fun p => p.symbol = symbol).map fun p => ⟨pair, p.price⟩ := by
  -- pairs and symbols are one to one
  have honly : ∀ name, m.pairOf name = .ok pair ↔ name = symbol := by
    intro name
    rw [← SymbolMap.symbolOf_eq_ok_iff_pairOf hm, hsymbol, Except.ok.injEq, eq_comm]
  have hticker : ∀ p : SymbolPrice, p.symbol = symbol → p.ticker? m = some ⟨pair, p.price⟩ :=
    fun p hp => SymbolPrice.ticker?_eq_some_iff.mpr ⟨(honly _).mpr hp, rfl⟩
  have hnamed : ∀ p : SymbolPrice,
      ((p.ticker? m).any fun t => t.pair = pair) = decide (p.symbol = symbol) := by
    intro p
    rw [Bool.eq_iff_iff, Option.any_eq_true, decide_eq_true_iff]
    constructor
    · rintro ⟨t, ht, hpair⟩
      rw [← honly, ← of_decide_eq_true hpair]
      exact (SymbolPrice.ticker?_eq_some_iff.mp ht).pair
    · intro hp
      exact ⟨_, hticker p hp, decide_eq_true rfl⟩
  have hmapped : tickersOf m listing = listing.prices.filterMap (SymbolPrice.ticker? m) := rfl
  rw [hmapped, List.find?_filterMap]
  simp only [hnamed]
  cases hfound : listing.prices.find? fun p => p.symbol = symbol with
  | none => rfl
  | some p => exact hticker p (by simpa using List.find?_some hfound)

/-- So it is found by the other call, and if there is none that call fails. -/
theorem tickerOf_eq_ok_iff (hm : SymbolMap.build entries = .ok m)
    (hsymbol : m.symbolOf pair = .ok symbol) {t : Ticker} : tickerOf pair symbol listing = .ok t ↔
      (tickersOf m listing).find? (fun t => t.pair = pair) = some t := by
  rw [find?_tickersOf hm hsymbol, tickerOf]
  cases listing.prices.find? fun p => p.symbol = symbol <;> simp

/-! ## The two calls -/

/-- Errands of one endpoint that needs no credentials, and which submit nothing, are sent alike. -/
theorem issue_of_same_endpoint (s : Session) (now : Readings) (expired : Bool) {e e' : Errand}
    (hsame : e'.endpoint = e.endpoint) (hpublic : e.endpoint.needsAuthentication = false)
    (hsubmits : e.submitted = none) (hsubmits' : e'.submitted = none) :
    s.issue now expired e' = (s.issue now expired e).map fun r =>
      (r.1, r.2.map fun p => { p with errand := e', request := e'.request }) := by
  unfold issue
  rw [hsame]
  cases s.limiter.reserve e.endpoint.tier now.limiter with
  | error fault => rfl
  | ok reserved =>
    obtain ⟨limiter, admitted⟩ := reserved
    cases admitted with
    | error refusal => rfl
    | ok reservation =>
      simp only [bind, Except.bind, requestOf, hsame, hpublic, trackSubmitted, hsubmits, hsubmits']
      cases expired <;> rfl

/-- The price of a known pair is asked for as all prices are, but for the symbol. -/
theorem start_of_ticker (hsymbol : s.symbols.current.symbolOf pair = .ok symbol) (now : Readings)
    (expired : Bool) : s.start now expired (.ticker pair) =
      (s.start now expired .allPrices).map fun r => (r.1, r.2.map fun p =>
        { p with errand := .ticker pair symbol, request := (Errand.ticker pair symbol).request }) := by
  have hplan : s.plan now.record (.ticker pair) = .ok (.ok (.ticker pair symbol)) := by
    rw [plan, withSymbol, hsymbol]
    rfl
  have hticker : s.start now expired (.ticker pair) = s.issue now expired (.ticker pair symbol) := by
    rw [start, hplan]
    rfl
  rw [hticker]
  exact s.issue_of_same_endpoint now expired rfl rfl rfl rfl

/-- The body of a successful reply is taken in, with the budget recorded. -/
theorem finish_of_success (s : Session) (now : Readings) (p : Pending) {response : Http.Response}
    (h : response.isSuccess = true) : s.finish now p (.reply response) =
      (s.record p.reservation).takeBody now.record p.sequence p.errand response.body := by
  simp only [finish, settle, h, if_true]

/-- What is given of a body that has to be read first is answered if it can be read. -/
theorem given_eq_ok_iff {α : Type} {e : Errand} {d : Json.Decoder α} {body : String}
    {give : α → Answer} {answer : Answer} :
    (readBody e d body >>= fun a => pure (give a)) = .ok answer ↔
      ∃ a, Json.decode d body = .ok a ∧ answer = give a := by
  simp only [bind_eq_ok, readBody_eq_ok_iff, pure_eq_ok, @eq_comm _ answer]

/-- What is made of it first is answered if it can be read and made. -/
theorem made_eq_ok_iff {α β : Type} {e : Errand} {d : Json.Decoder α} {body : String}
    {make : α → Except GatewayError β} {give : β → Answer} {answer : Answer} :
    (readBody e d body >>= fun a => make a >>= fun b => pure (give b)) = .ok answer ↔
      ∃ a b, Json.decode d body = .ok a ∧ make a = .ok b ∧ answer = give b := by
  simp only [bind_eq_ok, readBody_eq_ok_iff, pure_eq_ok]
  constructor
  · rintro ⟨a, hread, b, hmake, hgive⟩
    exact ⟨a, b, hread, hmake, hgive.symm⟩
  · rintro ⟨a, b, hread, hmake, hgive⟩
    exact ⟨a, hread, b, hmake, hgive.symm⟩

/-- Of the price of one pair nothing changes but the budget, and the price that is found is
answered. -/
theorem finish_of_ticker (s : Session) (now : Readings) {p : Pending}
    (hp : p.errand = .ticker pair symbol) {response : Http.Response}
    (h : response.isSuccess = true) :
    ∃ result, s.finish now p (.reply response) = .ok (s.record p.reservation, result) ∧
      ∀ answer, result = .ok answer ↔ ∃ listing t,
        Json.decode PriceListing.decoder response.body = .ok listing ∧
        tickerOf pair symbol listing = .ok t ∧ answer = .ticker t :=
  ⟨_, by rw [finish_of_success s now p h, hp]; rfl, fun _ => made_eq_ok_iff⟩

/-- All prices are answered if they can be read. -/
theorem finish_of_allPrices (s : Session) (now : Readings) {p : Pending}
    (hp : p.errand = .allPrices) {response : Http.Response} (h : response.isSuccess = true) :
    ∃ result, s.finish now p (.reply response) = .ok (s.record p.reservation, result) ∧
      ∀ answer, result = .ok answer ↔ ∃ listing,
        Json.decode PriceListing.decoder response.body = .ok listing ∧
        answer = .tickers (tickersOf s.symbols.current listing) :=
  ⟨_, by rw [finish_of_success s now p h, hp]; rfl, fun _ => given_eq_ok_iff⟩

end Session

namespace Dialogue

variable {d : Dialogue}

/-- **The price of one pair is the first of all prices for it.**  After every course of a session,
whatever was stopped, let a pair be known.

* Its price is asked for as all prices are: both calls are sent or neither is, with the same budget
  and the same place.
* Let the same successful reply answer both, while the symbols are those of the session.  Each call
  returns, and changes nothing but the budget.  A price is answered for the pair exactly if all prices
  are answered and there is one for the pair among them, and it is the first of these.  All prices
  are answered exactly if the reply can be read, and they are its prices whose symbols are known, one
  by one and in their order. -/
theorem prices_agree {s : Session} (hs : s.Fresh) {moves : List Move}
    (hd : (opening s).after moves = d) {pair symbol : String}
    (hsymbol : d.session.symbols.current.symbolOf pair = .ok symbol) :
    (∀ now expired, d.session.start now expired (.ticker pair) =
      (d.session.start now expired .allPrices).map fun r => (r.1, r.2.map fun p =>
        { p with
          errand := .ticker pair symbol
          request := (Errand.ticker pair symbol).request })) ∧
    ∀ now now' expired expired' s₀ s₀' p p',
      d.session.start now expired (.ticker pair) = .ok (s₀, .ok p) →
      d.session.start now' expired' .allPrices = .ok (s₀', .ok p') →
      ∀ (s₁ s₁' : Session) later later' (response : Http.Response),
        s₁'.symbols.current = d.session.symbols.current → response.isSuccess = true →
        ∃ one all,
          s₁.finish later p (.reply response) = .ok (s₁.record p.reservation, one) ∧
          s₁'.finish later' p' (.reply response) = .ok (s₁'.record p'.reservation, all) ∧
          (∀ answer, one = .ok answer ↔ ∃ ts t, all = .ok (.tickers ts) ∧
            ts.find? (fun t => t.pair = pair) = some t ∧ answer = .ticker t) ∧
          ∀ answer, all = .ok answer ↔ ∃ listing ts,
            Json.decode PriceListing.decoder response.body = .ok listing ∧
            List.Forall₂ d.session.symbols.current.Quotes
              (listing.prices.filter d.session.symbols.current.knows) ts ∧
            answer = .tickers ts := by
  obtain ⟨catalogue, hcaches⟩ := caches_after hs moves
  rw [hd] at hcaches
  have hbuild := SymbolMap.build_eq_ok_iff.mpr ⟨hcaches.consistent, hcaches.current⟩
  refine ⟨Session.start_of_ticker hsymbol, ?_⟩
  intro now now' expired expired' s₀ s₀' p p' hstart hstart' s₁ s₁' later later' response hsame
    hsuccess
  have herrand : p.errand = .ticker pair symbol := by
    obtain ⟨_, hnamed, herrand⟩ :=
      Session.withSymbol_eq_ok.mp (Except.ok.inj (Session.plan_of_start hstart))
    rw [hsymbol] at hnamed
    cases hnamed
    exact herrand
  have herrand' : p'.errand = .allPrices :=
    (Except.ok.inj (Except.ok.inj (Session.plan_of_start hstart'))).symm
  obtain ⟨one, hone, hone_iff⟩ := s₁.finish_of_ticker later herrand hsuccess
  obtain ⟨all, hall, hall_iff⟩ := s₁'.finish_of_allPrices later' herrand' hsuccess
  rw [hsame] at hall_iff
  refine ⟨one, all, hone, hall, fun answer => ?_, fun answer => ?_⟩
  · rw [hone_iff]
    constructor
    · rintro ⟨listing, t, hread, ht, rfl⟩
      rw [Session.tickerOf_eq_ok_iff hbuild hsymbol] at ht
      exact ⟨_, t, (hall_iff _).mpr ⟨listing, hread, rfl⟩, ht, rfl⟩
    · rintro ⟨ts, t, hanswered, ht, rfl⟩
      obtain ⟨listing, hread, htickers⟩ := (hall_iff _).mp hanswered
      cases htickers
      exact ⟨listing, t, hread, (Session.tickerOf_eq_ok_iff hbuild hsymbol).mpr ht, rfl⟩
  · simp only [hall_iff, ← Session.tickersOf_eq_iff]
    constructor
    · rintro ⟨listing, hread, rfl⟩
      exact ⟨listing, _, hread, rfl, rfl⟩
    · rintro ⟨listing, _, hread, rfl, rfl⟩
      exact ⟨listing, hread, rfl⟩

/-- Three prices: of a symbol that is not known, and two of one that is. -/
def pricesReply : Http.Response :=
  ⟨200, "[\x7b\"symbol\":\"BTC/XLM\",\"price\":\"7\"\x7d," ++
    "\x7b\"symbol\":\"ETH/XLM\",\"price\":\"10.12\"\x7d," ++
    "\x7b\"symbol\":\"ETH/XLM\",\"price\":\"11\"\x7d]"⟩

/-- The map of a session that knows only this pair. -/
def ethOnly : SymbolMap := ⟨[⟨"ETH-XLM", "ETH/XLM", some "TRADING"⟩]⟩

/-- Of two prices for a pair the first is answered by the one call, and both by the other. -/
theorem prices_twoOfEth : ∃ s d s₀ s₀' p p' s₁ s₁' first second,
    Session.create .default ⟨"key", "secret", none⟩ = .ok s ∧ (opening s).after renewed = d ∧
    d.session.symbols.current.symbolOf "ETH-XLM" = .ok "ETH/XLM" ∧
    d.session.start (.still ⟨0, false⟩) false (.ticker "ETH-XLM") = .ok (s₀, .ok p) ∧
    d.session.start (.still ⟨0, false⟩) false .allPrices = .ok (s₀', .ok p') ∧
    s₀.finish (.still ⟨0, false⟩) p (.reply pricesReply) =
      .ok (s₁, .ok (.ticker ⟨"ETH-XLM", first⟩)) ∧
    s₀'.finish (.still ⟨0, false⟩) p' (.reply pricesReply) =
      .ok (s₁', .ok (.tickers [⟨"ETH-XLM", first⟩, ⟨"ETH-XLM", second⟩])) ∧
    Decimal.ofText? "10.12" = some first ∧ Decimal.ofText? "11" = some second := by
  have hknown : (do
      let s ← (Session.create .default ⟨"key", "secret", none⟩).toOption
      let d := (opening s).after renewed
      let one ← (d.session.start (.still ⟨0, false⟩) false (.ticker "ETH-XLM")).toOption
      let _ ← one.2.toOption
      let all ← (d.session.start (.still ⟨0, false⟩) false .allPrices).toOption
      let _ ← all.2.toOption
      return (d.session.symbols.current, all.1.symbols.current)) = some (ethOnly, ethOnly) := by
    decide +kernel
  have hlisting : (do
      let other ← Decimal.ofText? "7"
      let first ← Decimal.ofText? "10.12"
      let second ← Decimal.ofText? "11"
      let listing ← (Json.decode PriceListing.decoder pricesReply.body).toOption
      return decide (listing = .many
        [⟨"BTC/XLM", other⟩, ⟨"ETH/XLM", first⟩, ⟨"ETH/XLM", second⟩])) = some true := by
    decide +kernel
  simp only [Option.bind_eq_bind, Option.bind_eq_some_iff, toOption_eq_some_iff, Option.pure_def,
    Option.some.injEq, Prod.mk.injEq, Prod.exists, decide_eq_true_eq] at hknown hlisting
  obtain ⟨s, hs, s₀, _, hstart, p, rfl, s₀', _, hstart', p', rfl, hmap, hmap'⟩ := hknown
  obtain ⟨other, _, first, hfirst, second, hsecond, listing, hread, rfl⟩ := hlisting
  obtain ⟨d, hd⟩ : ∃ d, (opening s).after renewed = d := ⟨_, rfl⟩
  rw [hd] at hstart hstart' hmap
  have hsymbol : d.session.symbols.current.symbolOf "ETH-XLM" = .ok "ETH/XLM" := by
    rw [hmap]
    rfl
  obtain ⟨one, all, hone, hall, hone_iff, hall_iff⟩ :=
    (prices_agree (.created hs) hd hsymbol).2 (.still ⟨0, false⟩) (.still ⟨0, false⟩) false false
      s₀ s₀' p p' hstart hstart' s₀ s₀' (.still ⟨0, false⟩) (.still ⟨0, false⟩) pricesReply
      (hmap'.trans hmap.symm) rfl
  have htickers : all = .ok (.tickers [⟨"ETH-XLM", first⟩, ⟨"ETH-XLM", second⟩]) := by
    refine (hall_iff _).mpr ⟨_, _, hread, ?_, rfl⟩
    rw [hmap, ← Session.tickersOf_eq_iff]
    rfl
  have hticker : one = .ok (.ticker ⟨"ETH-XLM", first⟩) :=
    (hone_iff _).mpr ⟨_, _, htickers, rfl, rfl⟩
  rw [hticker] at hone
  rw [htickers] at hall
  exact ⟨s, d, s₀, s₀', p, p', _, _, first, second, hs, hd, hsymbol, hstart, hstart', hone, hall,
    hfirst, hsecond⟩

end Dialogue

end SpotGateway
