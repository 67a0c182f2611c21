import SpotGateway.Proofs.Session.Markets

/-!
# What an order has to clear before it is sent

Rounding, checks and names read the rules and the symbols of a session, which are renewed apart from
orders.  An order that is sent has passed every check with the amount and the price that it is sent
with, and under the rule of its own pair.

* `TradingRule.Admits`, `TradingRule.check_eq_ok_iff` — the minimums of a rule;
* `OrderRequest.Priced`, `Session.checkOrder_eq_ok_iff` — all that is checked of an order;
* `Session.Clears`, `Session.clears_of_plan` — an order that may be sent;
* `Dialogue.clears_of_course` — whatever was done before, an order that is sent has cleared
  everything.
-/

set_option autoImplicit false

namespace SpotGateway

/-- The order meets the minimums of the rule; without a price there is no notional to look at. -/
structure TradingRule.Admits (rule : TradingRule) (amount : Decimal) (price : Option Decimal) :
    Prop where
  size : rule.minSize ≤ amount
  notional : ∀ p, price = some p → ∃ n, amount.mul p = .ok n ∧ rule.minNotional ≤ n

theorem TradingRule.check_eq_ok_iff {rule : TradingRule} {amount : Decimal}
    {price : Option Decimal} :
    rule.check amount price = .ok (.ok ()) ↔ rule.Admits amount price := by
  unfold check
  split
  · rename_i hsmall
    constructor
    · intro h
      cases h
    · intro h
      exact absurd hsmall (Decimal.not_lt.mpr h.size)
  · rename_i hsize
    have hsize := Decimal.not_lt.mp hsize
    cases price with
    | none =>
      refine ⟨fun _ => ⟨hsize, ?_⟩, fun _ => rfl⟩
      intro p hp
      cases hp
    | some price =>
      simp only [bind_eq_ok]
      constructor
      · rintro ⟨n, hn, h⟩
        split at h
        · cases h
        · rename_i hnotional
          refine ⟨hsize, ?_⟩
          rintro p hp
          cases hp
          exact ⟨n, hn, Decimal.not_lt.mp hnotional⟩
      · intro h
        obtain ⟨n, hn, hnotional⟩ := h.notional price rfl
        exact ⟨n, hn, if_neg (Decimal.not_lt.mpr hnotional)⟩

/-- Amount and price are positive, and the price is there if the kind of order requires one. -/
structure OrderRequest.Priced (order : OrderRequest) : Prop where
  amount_pos : Decimal.zero < order.amount
  priced : order.kind.requiresPrice = true → ∃ price, order.price = some price
  price_pos : ∀ price, order.price = some price → Decimal.zero < price

namespace Session

variable {s s' : Session} {now : Timestamp} {request : OrderRequest} {rule : TradingRule}

theorem priceFault_eq_none_iff {order : OrderRequest} : priceFault order = none ↔
    (order.kind.requiresPrice = true → ∃ price, order.price = some price) ∧
      ∀ price, order.price = some price → Decimal.zero < price := by
  unfold priceFault
  cases order.price with
  | none => simp
  | some price => simp [← Decimal.not_le]

/-- An order passes if it is priced and its rule, if there is one, admits it. -/
theorem checkOrder_eq_ok_iff {order : OrderRequest} : s.checkOrder order = .ok (.ok ()) ↔
    order.Priced ∧
      ∀ rule, s.rule? order.pair = some rule → rule.Admits order.amount order.price := by
  unfold checkOrder
  split
  · rename_i hamount
    constructor
    · intro h
      cases h
    · rintro ⟨h, _⟩
      exact absurd hamount (Decimal.not_le.mpr h.amount_pos)
  · rename_i hamount
    have hamount := Decimal.not_le.mp hamount
    cases hprice : priceFault order with
    | some reason =>
      constructor
      · intro h
        cases h
      · rintro ⟨h, _⟩
        rw [priceFault_eq_none_iff.mpr ⟨h.priced, h.price_pos⟩] at hprice
        cases hprice
    | none =>
      obtain ⟨hpriced, hpos⟩ := priceFault_eq_none_iff.mp hprice
      have horder : order.Priced := ⟨hamount, hpriced, hpos⟩
      cases hrule : s.rule? order.pair with
      | none =>
        refine ⟨fun _ => ⟨horder, ?_⟩, fun _ => rfl⟩
        intro rule h
        cases h
      | some rule =>
        simp only [bind_eq_ok]
        constructor
        · rintro ⟨checked, hcheck, h⟩
          cases checked with
          | error violation => cases h
          | ok u =>
            refine ⟨horder, ?_⟩
            rintro rule' h
            cases h
            exact TradingRule.check_eq_ok_iff.mp hcheck
        · rintro ⟨_, h⟩
          exact ⟨_, TradingRule.check_eq_ok_iff.mpr (h rule rfl), rfl⟩

/-- The order is the one that is asked for, rounded by the rule of its pair, and meets all that is
required of it with the amount and the price it has then. -/
structure Clears (s : Session) (request : OrderRequest) (rule : TradingRule) (o : InFlightOrder) :
    Prop where
  rule_eq : s.rule? request.pair = some rule
  pair : o.pair = request.pair
  amount : rule.quantizeAmount request.amount = .ok o.amount
  price : request.price.mapM rule.quantizePrice = .ok o.price
  amount_pos : Decimal.zero < o.amount
  priced : request.kind = .limit → ∃ price, o.price = some price
  price_pos : ∀ price, o.price = some price → Decimal.zero < price
  admits : rule.Admits o.amount o.price
  tradable : s.isTradable request.pair = true

/-- An order that is planned is one of a pair that is open for trading, and if a rule is known of
the pair the order clears it. -/
theorem clears_of_plan {nonce symbol : String} {o : InFlightOrder}
    (h : s.plan now (.place request nonce) = .ok (.ok (.place o symbol))) :
    s.symbols.current.symbolOf request.pair = .ok symbol ∧ s.isTradable request.pair = true ∧
      ∀ rule, s.rule? request.pair = some rule → s.Clears request rule o := by
  obtain ⟨rounded, symbol', clientId, createdAt, hquantize, hcheck, hnames, _, herrand⟩ :=
    planOrder_eq_ok h
  cases herrand
  obtain ⟨hrounds, hpair, _, hkind⟩ := quantize_eq_ok hquantize
  obtain ⟨hpriced, hadmits⟩ := checkOrder_eq_ok_iff.mp hcheck
  obtain ⟨hsymbol, hopen, _⟩ := orderNames_eq_ok hnames
  rw [hpair] at hsymbol hopen hadmits
  refine ⟨hsymbol, hopen, fun rule hrule => ?_⟩
  rw [hrule] at hrounds
  exact {
    rule_eq := hrule
    pair := hpair
    amount := hrounds.1
    price := hrounds.2
    amount_pos := hpriced.amount_pos
    priced := fun hlimit => hpriced.priced (by rw [hkind, hlimit]; rfl)
    price_pos := hpriced.price_pos
    admits := hadmits rule hrule
    tradable := hopen }

end Session

namespace Dialogue

variable {d : Dialogue}

/-- **No order is sent that has not cleared every check.**  After every course of a session, with
any replies and at any times and whatever was stopped, let an order be submitted and sent.  Its pair
has a rule.  The body of the request is a document that says the client id, the market, the side, the
amount, the price and the kind of an order, and this is the order that is on record under that client
id: the one that was asked for, rounded by the rule.  Rounded as it is, its amount is positive, it
has a price if it is a limit order, its price is positive, and amount and notional meet the minimums
of the rule.  Its pair is open for trading, and the market that the document says is the symbol of
the pair, which is translated back to the pair. -/
theorem clears_of_course {s : Session} (hs : s.Fresh) {moves : List Move}
    (hd : (opening s).after moves = d) {now : Readings} {expired : Bool} {request : OrderRequest}
    {nonce : String} {s' : Session} {p : Pending}
    (hstart : d.session.start now expired (.place request nonce) = .ok (s', .ok p)) :
    ∃ (rule : TradingRule) (sent : OrderBody) (o : InFlightOrder),
      p.request.Submits sent ∧ sent = o.submission sent.market ∧
      s'.tracker.get? sent.clientId = some o ∧ d.session.Clears request rule o ∧
      d.session.symbols.current.symbolOf request.pair = .ok sent.market ∧
      d.session.symbols.current.pairOf sent.market = .ok request.pair := by
  obtain ⟨catalogue, hcaches⟩ := caches_after hs moves
  rw [hd] at hcaches
  obtain ⟨o, symbol, herrand, hbody, hsubmitted⟩ := Session.submitted_of_start hstart
  have hplan := Session.plan_of_start hstart
  rw [herrand] at hplan
  obtain ⟨hsymbol, hopen, hclears⟩ := Session.clears_of_plan hplan
  obtain ⟨rule, hrule⟩ := hcaches.hasRule_of_tradable hopen
  have hback : d.session.symbols.current.pairOf symbol = .ok request.pair :=
    (hcaches.shows.pairOf_iff _ _).mpr ((hcaches.shows.symbolOf_iff _ _).mp hsymbol)
  exact ⟨rule, o.submission symbol, o, hbody, rfl, hsubmitted.tracked, hclears rule hrule, hsymbol,
    hback⟩

/-- A limit order whose price lies between two ticks. -/
def betweenTicks : OrderRequest :=
  ⟨"ETH-XLM", .buy, .limit, .one, Decimal.make? 10129 3⟩

/-- It is sent with the lower one. -/
theorem clears_betweenTicks : ∃ (s : Session) (d : Dialogue) (s' : Session) (p : Pending)
    (sent : OrderBody) (o : InFlightOrder),
    Session.create .default ⟨"key", "secret", none⟩ = .ok s ∧ (opening s).after renewed = d ∧
    d.session.start (.still ⟨0, false⟩) false (.place betweenTicks "0123456789abcdef") =
      .ok (s', .ok p) ∧
    p.request.Submits sent ∧ sent.market = "ETH/XLM" ∧
    s'.tracker.get? sent.clientId = some o ∧ o.amount = .one ∧
    o.price = Decimal.make? 1012 2 := by
  have hsent : (do
      let s ← (Session.create .default ⟨"key", "secret", none⟩).toOption
      let d := (opening s).after renewed
      let started ← (d.session.start (.still ⟨0, false⟩) false
        (.place betweenTicks "0123456789abcdef")).toOption
      let _ ← started.2.toOption
      let symbol ← (d.session.symbols.current.symbolOf "ETH-XLM").toOption
      return (d.session.rule? "ETH-XLM", symbol)) =
        some (some (listed.rule "ETH-XLM"), "ETH/XLM") := by
    decide +kernel
  simp only [Option.bind_eq_bind, Option.bind_eq_some_iff, toOption_eq_some_iff, Option.pure_def,
    Option.some.injEq, Prod.mk.injEq] at hsent
  obtain ⟨s, hs, ⟨s', started⟩, hstart, p, rfl, symbol, hsymbol, hrule, rfl⟩ := hsent
  obtain ⟨rule, sent, o, hbody, _, htracked, hclears, hmarket, _⟩ :=
    clears_of_course (.created hs) rfl hstart
  have hlisted : rule = listed.rule "ETH-XLM" :=
    Option.some.inj (hclears.rule_eq.symm.trans hrule)
  have hamount := hclears.amount
  have hprice := hclears.price
  rw [hlisted] at hamount hprice
  have hdown : betweenTicks.price.mapM (listed.rule "ETH-XLM").quantizePrice =
      .ok (Decimal.make? 1012 2) := by
    decide +kernel
  rw [hdown] at hprice
  refine ⟨s, _, s', p, sent, o, hs, rfl, hstart, hbody, ?_, htracked, ?_, ?_⟩
  · exact Except.ok.inj (hmarket.symm.trans hsymbol)
  · exact (Except.ok.inj hamount).symm
  · exact (Except.ok.inj hprice).symm

end Dialogue

end SpotGateway
