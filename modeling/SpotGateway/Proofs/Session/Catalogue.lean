import SpotGateway.Proofs.Keyed
import SpotGateway.Proofs.Session.Submission
import SpotGateway.Proofs.Symbols.Refresh

/-!
# Symbols and rules of one catalogue

A catalogue is what the exchange says of its symbols at one time.  A session keeps the names of the
symbols apart from their rules; both come from the same catalogue all the same, and no call changes
one without the other.

* `SymbolInfo.Consistent`, `Http.Delivery.catalogue?` — a catalogue that can be taken in, and a
  delivery that brings one;
* `SymbolInfo.Requires`, `Session.get?_rulesOf_eq_some_iff` — the rule of an entry, and the rules of
  a catalogue;
* `Session.Caches`, `Session.Mirrors` — a session has the symbols and rules of a catalogue, and what
  can be looked up in it then;
* `Session.SameMarkets` — symbols and rules are as they were;
* `Session.Lists`, `Session.Caches.lists_openRules` — the rules of all pairs that are open for
  trading, sorted by pair;
* `Session.finish_of_catalogue`, `Session.finish_without_catalogue` — how a call that asks for a
  catalogue is finished.
-/

set_option autoImplicit false

namespace SpotGateway

namespace SymbolInfo

def pair (i : SymbolInfo) : String := i.entry.pair

/-- No pair and no symbol occurs twice. -/
def Consistent (catalogue : List SymbolInfo) : Prop :=
  SymbolEntry.Consistent (catalogue.map entry)

instance (catalogue : List SymbolInfo) : Decidable (Consistent catalogue) :=
  inferInstanceAs (Decidable (SymbolEntry.Consistent _))

theorem map_pair_entry (catalogue : List SymbolInfo) :
    (catalogue.map entry).map SymbolEntry.pair = catalogue.map pair := by
  rw [List.map_map]
  rfl

theorem Consistent.nodup_pairs {catalogue : List SymbolInfo} (h : Consistent catalogue) :
    (catalogue.map pair).Nodup := by
  rw [← map_pair_entry]
  exact h.1

/-- The requirement is the one that was said, or nothing where none was. -/
def Demands (said : Option Decimal) (required : Decimal) : Prop :=
  said = some required ∨ said = none ∧ required = .zero

theorem demands_iff {said : Option Decimal} {required : Decimal} :
    Demands said required ↔ said.getD .zero = required := by
  cases said <;> simp [Demands, eq_comm]

/-- The rule is for the pair of the entry and requires what the entry says: the least size, the
notional, and the steps of prices and amounts, and nothing where the entry is silent. -/
structure Requires (i : SymbolInfo) (rule : TradingRule) : Prop where
  pair : rule.pair = i.pair
  minSize : Demands i.minSize rule.minSize
  tick : Demands i.tick rule.tick
  step : Demands i.step rule.step
  minNotional : Demands i.minNotional rule.minNotional

/-- The rule of an entry is the one that requires what the entry says. -/
theorem requires_iff {i : SymbolInfo} {rule : TradingRule} :
    i.Requires rule ↔ i.rule i.pair = rule := by
  constructor
  · intro h
    rw [SymbolInfo.rule, demands_iff.mp h.minSize, demands_iff.mp h.tick, demands_iff.mp h.step,
      demands_iff.mp h.minNotional, ← h.pair]
  · rintro rfl
    exact ⟨rfl, demands_iff.mpr rfl, demands_iff.mpr rfl, demands_iff.mpr rfl, demands_iff.mpr rfl⟩

end SymbolInfo

/-- The catalogue that a delivery brings: that of a successful reply which can be read and does not
contradict itself. -/
def Http.Delivery.catalogue? : Http.Delivery → Option (List SymbolInfo)
  | .reply response =>
    if response.isSuccess then
      match Json.decode ExchangeInfo.decoder response.body with
      | .ok info => if SymbolInfo.Consistent info.symbols then some info.symbols else none
      | .error _ => none
    else none
  | _ => none

namespace Session

open SymbolInfo (Consistent)

variable {s s' : Session} {now : Readings} {catalogue : List SymbolInfo} {pair : String}
  {rule : TradingRule}

/-! ## The rules of a catalogue -/

theorem rulesOf_of_consistent (h : Consistent catalogue) :
    rulesOf catalogue = catalogue.map fun i => (i.pair, i.rule i.pair) :=
  Keyed.foldl_set_of_nodup SymbolInfo.pair (fun i => i.rule i.pair) h.nodup_pairs

theorem apart_rulesOf (h : Consistent catalogue) : (rulesOf catalogue).Apart := by
  rw [rulesOf_of_consistent h, Keyed.Apart, Keyed.keys, List.map_map]
  exact h.nodup_pairs

theorem get?_rulesOf_eq_some_iff (h : Consistent catalogue) :
    (rulesOf catalogue).get? pair = some rule ↔
      ∃ i ∈ catalogue, i.pair = pair ∧ i.Requires rule := by
  rw [(apart_rulesOf h).get?_eq_some_iff, rulesOf_of_consistent h, List.mem_map]
  constructor
  · rintro ⟨i, hi, heq⟩
    cases heq
    exact ⟨i, hi, rfl, SymbolInfo.requires_iff.mpr rfl⟩
  · rintro ⟨i, hi, rfl, hrequires⟩
    exact ⟨i, hi, congrArg (Prod.mk i.pair) (SymbolInfo.requires_iff.mp hrequires)⟩

/-! ## A session with the symbols and rules of a catalogue -/

/-- The session with the symbols and rules of a catalogue. -/
def withCatalogue (s : Session) (catalogue : List SymbolInfo) : Session :=
  { s with
    symbols := { s.symbols with current := .ofEntries (catalogue.map SymbolInfo.entry) }
    rules := rulesOf catalogue }

/-- The rules of the pairs that are open for trading, sorted by pair. -/
def openRules (s : Session) : List TradingRule :=
  (s.rules.values.filter fun r => s.isTradable r.pair).mergeSort fun a b => decide (a.pair ≤ b.pair)

/-- Symbols and rules are those of the catalogue, which does not contradict itself. -/
structure Caches (s : Session) (catalogue : List SymbolInfo) : Prop where
  consistent : Consistent catalogue
  current : s.symbols.current = .ofEntries (catalogue.map SymbolInfo.entry)
  rules : s.rules = rulesOf catalogue

/-- What can be looked up is what the catalogue says: names of pairs and symbols, which pairs are
open for trading, and for each pair there is, and for no other, the rule of its own entry. -/
structure Mirrors (s : Session) (catalogue : List SymbolInfo) : Prop where
  symbols : s.symbols.Shows (catalogue.map SymbolInfo.entry)
  hasRule_iff : ∀ pair, (∃ rule, s.rule? pair = some rule) ↔ pair ∈ s.symbols.current.pairs
  rule_iff : ∀ pair rule, s.rule? pair = some rule ↔
    ∃ i ∈ catalogue, i.pair = pair ∧ i.Requires rule

/-- Symbols and rules are as they were. -/
structure SameMarkets (s s' : Session) : Prop where
  symbols : s'.symbols = s.symbols
  rules : s'.rules = s.rules

/-- The rules are those of the pairs that are open for trading, each once and sorted by pair. -/
structure Lists (s : Session) (rules : List TradingRule) : Prop where
  sorted : rules.Pairwise fun a b => a.pair < b.pair
  mem_iff : ∀ rule, rule ∈ rules ↔
    s.rule? rule.pair = some rule ∧ s.isTradable rule.pair = true
  complete : ∀ pair, s.isTradable pair = true → ∃ rule ∈ rules, rule.pair = pair

theorem caches_withCatalogue (s : Session) (h : Consistent catalogue) :
    (s.withCatalogue catalogue).Caches catalogue :=
  ⟨h, rfl, rfl⟩

theorem Caches.of_same (h : s.Caches catalogue) (hsame : s.SameMarkets s') :
    s'.Caches catalogue :=
  ⟨h.consistent, hsame.symbols ▸ h.current, hsame.rules ▸ h.rules⟩

theorem Caches.shows (h : s.Caches catalogue) :
    s.symbols.Shows (catalogue.map SymbolInfo.entry) :=
  .of_current h.current h.consistent

theorem Caches.rule_iff (h : s.Caches catalogue) :
    s.rule? pair = some rule ↔ ∃ i ∈ catalogue, i.pair = pair ∧ i.Requires rule := by
  rw [rule?, h.rules]
  exact get?_rulesOf_eq_some_iff h.consistent

/-- A rule is found under the pair it is for. -/
theorem Caches.pair_of_rule (h : s.Caches catalogue) (hrule : s.rule? pair = some rule) :
    rule.pair = pair := by
  obtain ⟨i, _, hi, hrequires⟩ := h.rule_iff.mp hrule
  exact hrequires.pair.trans hi

theorem Caches.hasRule_iff (h : s.Caches catalogue) :
    (∃ rule, s.rule? pair = some rule) ↔ pair ∈ s.symbols.current.pairs := by
  rw [h.shows.mem_pairs_iff, SymbolInfo.map_pair_entry, List.mem_map]
  constructor
  · rintro ⟨rule, hrule⟩
    obtain ⟨i, hi, hpair, _⟩ := h.rule_iff.mp hrule
    exact ⟨i, hi, hpair⟩
  · rintro ⟨i, hi, hpair⟩
    exact ⟨_, h.rule_iff.mpr ⟨i, hi, hpair, SymbolInfo.requires_iff.mpr rfl⟩⟩

theorem Caches.mirrors (h : s.Caches catalogue) : s.Mirrors catalogue where
  symbols := h.shows
  hasRule_iff _ := h.hasRule_iff
  rule_iff _ _ := h.rule_iff

/-- A pair that is open for trading has a rule. -/
theorem Caches.hasRule_of_tradable (h : s.Caches catalogue) (hopen : s.isTradable pair = true) :
    ∃ rule, s.rule? pair = some rule := by
  obtain ⟨e, he, hpair, _⟩ := (h.shows.isTradable_iff pair).mp hopen
  exact h.hasRule_iff.mpr ((h.shows.mem_pairs_iff pair).mpr (hpair ▸ List.mem_map_of_mem he))

theorem Caches.lists_openRules (h : s.Caches catalogue) : s.Lists s.openRules := by
  have hmem : ∀ rule, rule ∈ s.openRules ↔
      s.rule? rule.pair = some rule ∧ s.isTradable rule.pair = true := by
    intro rule
    rw [openRules, List.mem_mergeSort, List.mem_filter,
      Keyed.Apart.mem_values_iff (h.rules ▸ apart_rulesOf h.consistent)]
    refine and_congr_left fun _ => ?_
    constructor
    · rintro ⟨pair, hrule⟩
      have hpair := h.pair_of_rule hrule
      rw [hpair]
      exact hrule
    · exact fun hrule => ⟨rule.pair, hrule⟩
  refine ⟨?_, hmem, ?_⟩
  · have hvalues : (s.rules.values.map TradingRule.pair).Nodup := by
      rw [h.rules, rulesOf_of_consistent h.consistent, Keyed.values, List.map_map, List.map_map]
      exact h.consistent.nodup_pairs
    exact pairwise_lt_mergeSort ((List.filter_sublist.map TradingRule.pair).nodup hvalues)
  · intro pair hopen
    obtain ⟨rule, hrule⟩ := h.hasRule_of_tradable hopen
    have hpair := h.pair_of_rule hrule
    exact ⟨rule, (hmem rule).mpr ⟨hpair.symm ▸ hrule, hpair.symm ▸ hopen⟩, hpair⟩

/-! ## What calls do to symbols and rules -/

theorem SameMarkets.refl (s : Session) : s.SameMarkets s := ⟨rfl, rfl⟩

theorem SameMarkets.trans {s₁ s₂ s₃ : Session} (h : s₁.SameMarkets s₂) (h' : s₂.SameMarkets s₃) :
    s₁.SameMarkets s₃ :=
  ⟨h'.symbols.trans h.symbols, h'.rules.trans h.rules⟩

theorem OnlyOrders.sameMarkets (h : s.OnlyOrders s') : s.SameMarkets s' := by
  obtain ⟨_, rfl⟩ := h
  exact ⟨rfl, rfl⟩

/-- Starting a call changes neither symbols nor rules. -/
theorem sameMarkets_of_start {expired : Bool} {call : Call} {result : Except GatewayError Pending}
    (h : s.start now expired call = .ok (s', result)) : s.SameMarkets s' := by
  obtain ⟨_, _, rfl⟩ := changes_of_start h
  exact ⟨rfl, rfl⟩

theorem sameMarkets_settle (s : Session) (now : Timestamp) (r : Reservation)
    (delivery : Http.Delivery) : s.SameMarkets (s.settle now r delivery).1 := by
  obtain ⟨_, hlimiter⟩ := s.changes_settle now r delivery
  rw [hlimiter]
  exact ⟨rfl, rfl⟩

/-- No call but the one that asks for a catalogue changes symbols or rules when it is finished. -/
theorem sameMarkets_of_finish {p : Pending} (hp : p.errand ≠ .exchangeInfo)
    {delivery : Http.Delivery} {result : Except GatewayError Answer}
    (h : s.finish now p delivery = .ok (s', result)) : s.SameMarkets s' := by
  obtain ⟨s₁, settled, hsettle, _, hcases⟩ := finish_cases h
  have hsettled := sameMarkets_settle s now.limiter p.reservation delivery
  rw [hsettle] at hsettled
  rcases hcases with ⟨error, _, _, hafter⟩ | ⟨body, _, hbody⟩
  · exact hsettled.trans (onlyOrders_afterFailure hafter).sameMarkets
  · rcases takeBody_cases hbody with horders | ⟨_, _, _, _, rfl⟩ | ⟨_, hinfo, _⟩
    · exact hsettled.trans horders.sameMarkets
    · exact hsettled.trans ⟨rfl, rfl⟩
    · exact absurd hinfo hp

/-- A call asks for a catalogue from its plan on. -/
theorem errand_of_start {expired : Bool} {call : Call} {p : Pending}
    (h : s.start now expired call = .ok (s', .ok p)) :
    p.errand = .exchangeInfo ↔ call = .exchangeInfo := by
  rcases plan_cases (plan_of_start h) with ⟨order, nonce, rfl, hplan⟩ | ⟨_, _, hinfo⟩
  · obtain ⟨_, _, _, _, _, _, _, _, herrand⟩ := planOrder_eq_ok hplan
    simp [herrand]
  · exact hinfo

/-! ## Asking for a catalogue -/

theorem takeExchangeInfo_of_consistent (s : Session) {info : ExchangeInfo}
    (h : Consistent info.symbols) : s.takeExchangeInfo info =
      (s.withCatalogue info.symbols, .ok (s.withCatalogue info.symbols).openRules) := by
  rw [takeExchangeInfo, SymbolTable.refresh_of_consistent _ h]
  rfl

theorem takeExchangeInfo_of_not_consistent (s : Session) {info : ExchangeInfo}
    (h : ¬ Consistent info.symbols) : ∃ error, s.takeExchangeInfo info = (s, .error error) := by
  obtain ⟨name, taken, new, hrefresh⟩ := SymbolTable.refresh_of_not_consistent s.symbols h
  exact ⟨_, by rw [takeExchangeInfo, hrefresh]⟩

/-- A catalogue is put in the place of the one before, and its open pairs are answered. -/
theorem finish_of_catalogue (s : Session) (now : Readings) {p : Pending}
    (hp : p.errand = .exchangeInfo) {delivery : Http.Delivery}
    (hcatalogue : delivery.catalogue? = some catalogue) :
    Consistent catalogue ∧ s.finish now p delivery =
      .ok ((s.record p.reservation).withCatalogue catalogue,
        .ok (.rules ((s.record p.reservation).withCatalogue catalogue).openRules)) := by
  cases delivery with
  | timedOut => cases hcatalogue
  | failed error => cases hcatalogue
  | reply response =>
    simp only [Http.Delivery.catalogue?] at hcatalogue
    split at hcatalogue
    · rename_i hsuccess
      split at hcatalogue
      · rename_i info hdecode
        split at hcatalogue
        · rename_i hconsistent
          cases hcatalogue
          refine ⟨hconsistent, ?_⟩
          simp only [finish, settle, hsuccess, if_true, hp, takeBody, taking, readBody, hdecode,
            takeExchangeInfo_of_consistent _ hconsistent]
          rfl
        · cases hcatalogue
      · cases hcatalogue
    · cases hcatalogue

/-- Without a catalogue there is an error, and symbols and rules stay as they are. -/
theorem finish_without_catalogue (s : Session) (now : Readings) {p : Pending}
    (hp : p.errand = .exchangeInfo) {delivery : Http.Delivery}
    (hcatalogue : delivery.catalogue? = none) :
    ∃ s' error, s.finish now p delivery = .ok (s', .error error) ∧ s.SameMarkets s' := by
  cases delivery with
  | timedOut =>
    simp only [finish, settle, hp, afterFailure, Errand.submitted]
    exact ⟨_, _, rfl, rfl, rfl⟩
  | failed error =>
    have hsettled := sameMarkets_settle s now.limiter p.reservation (.failed error)
    simp only [finish, settle, hp, afterFailure, Errand.submitted] at hsettled ⊢
    exact ⟨_, _, rfl, hsettled⟩
  | reply response =>
    simp only [Http.Delivery.catalogue?] at hcatalogue
    cases hsuccess : response.isSuccess with
    | false =>
      simp only [finish, settle, hsuccess, hp, afterFailure, Errand.submitted]
      exact ⟨_, _, rfl, rfl, rfl⟩
    | true =>
      rw [if_pos hsuccess] at hcatalogue
      cases hdecode : Json.decode ExchangeInfo.decoder response.body with
      | error failure =>
        simp only [finish, settle, hsuccess, if_true, hp, takeBody, taking, readBody, hdecode]
        exact ⟨_, _, rfl, rfl, rfl⟩
      | ok info =>
        rw [hdecode] at hcatalogue
        have hcontradicts : ¬ Consistent info.symbols := by
          intro hconsistent
          simp [hconsistent] at hcatalogue
        obtain ⟨error, htake⟩ :=
          takeExchangeInfo_of_not_consistent (s.record p.reservation) hcontradicts
        simp only [finish, settle, hsuccess, if_true, hp, takeBody, taking, readBody, hdecode,
          htake]
        exact ⟨_, _, rfl, rfl, rfl⟩

end Session

end SpotGateway
