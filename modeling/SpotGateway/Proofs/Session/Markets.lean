import SpotGateway.Proofs.Session.Catalogue
import SpotGateway.Proofs.Session.Dialogue

/-!
# Symbols and rules keep in step

Whatever is done with a session, its symbols and its rules are those of the catalogue it took in
last.  A call for a catalogue that fails leaves both as they were, and one that succeeds answers the
rules of the pairs that are open for trading.

* `Session.sameMarkets_of_attemptStart`, `Session.Caches.of_attemptFinish` — what the halves of a
  call do to symbols and rules, stopped or not;
* `Dialogue.catalogueAfter` — the catalogue that was taken in last;
* `Dialogue.caches_of_attempt`, `Dialogue.caches_of_course` — the invariant;
* `Dialogue.mirrors_of_course` — what holds after every course.
-/

set_option autoImplicit false

namespace SpotGateway

/-- The catalogue that is taken in when a call is finished. -/
def Pending.catalogue? (p : Pending) (delivery : Http.Delivery) : Option (List SymbolInfo) :=
  match p.errand with
  | .exchangeInfo => delivery.catalogue?
  | _ => none

theorem Pending.catalogue?_of_ne {p : Pending} (hp : p.errand ≠ .exchangeInfo)
    (delivery : Http.Delivery) : p.catalogue? delivery = none := by
  unfold catalogue?
  split
  · rename_i herrand
    exact absurd herrand hp
  · rfl

namespace Session

variable {s s' : Session} {now : Readings} {catalogue : List SymbolInfo}

theorem caches_of_fresh (hs : s.Fresh) : s.Caches [] := by
  obtain ⟨_, _, _, table, _, rfl⟩ := hs.eq
  exact ⟨SymbolEntry.consistent_nil, rfl, rfl⟩

/-- Starting a call changes neither symbols nor rules, even if it is stopped. -/
theorem sameMarkets_of_attemptStart {expired : Bool} {call : Call}
    {result : Checked (Except GatewayError Pending)}
    (half : s.attemptStart now expired call = (s', result)) : s.SameMarkets s' := by
  rcases attemptStart_cases half with ⟨answer, _, hstart⟩ | ⟨fault, _, _, hunsent⟩
  · exact sameMarkets_of_start hstart
  · obtain ⟨limiter, rfl⟩ := hunsent.changes
    exact ⟨rfl, rfl⟩

/-- A call for a catalogue is never stopped when it is finished. -/
theorem finish_isOk_of_exchangeInfo (s : Session) (now : Readings) {p : Pending}
    (hp : p.errand = .exchangeInfo) (delivery : Http.Delivery) :
    ∃ outcome, s.finish now p delivery = .ok outcome := by
  cases hcatalogue : delivery.catalogue? with
  | some catalogue => exact ⟨_, (s.finish_of_catalogue now hp hcatalogue).2⟩
  | none =>
    obtain ⟨s', error, hfinish, _⟩ := s.finish_without_catalogue now hp hcatalogue
    exact ⟨_, hfinish⟩

/-- After a call is finished, symbols and rules are those of the catalogue that it brings, or of
the one before. -/
theorem Caches.of_finish (h : s.Caches catalogue) {p : Pending} {delivery : Http.Delivery}
    {result : Except GatewayError Answer} (hfinish : s.finish now p delivery = .ok (s', result)) :
    s'.Caches ((p.catalogue? delivery).getD catalogue) := by
  by_cases hp : p.errand = .exchangeInfo
  · have hbrings : p.catalogue? delivery = delivery.catalogue? := by
      rw [Pending.catalogue?, hp]
    rw [hbrings]
    cases hcatalogue : delivery.catalogue? with
    | some new =>
      obtain ⟨hconsistent, htaken⟩ := finish_of_catalogue s now hp hcatalogue
      rw [htaken] at hfinish
      cases hfinish
      exact caches_withCatalogue _ hconsistent
    | none =>
      obtain ⟨s₁, error, hfailed, hsame⟩ := finish_without_catalogue s now hp hcatalogue
      rw [hfailed] at hfinish
      cases hfinish
      exact h.of_same hsame
  · rw [Pending.catalogue?_of_ne hp]
    exact h.of_same (sameMarkets_of_finish hp hfinish)

/-- A call that is stopped when it is finished brings no catalogue. -/
theorem Caches.of_attemptFinish (h : s.Caches catalogue) {p : Pending} {delivery : Http.Delivery}
    {result : Checked (Except GatewayError Answer)}
    (half : s.attemptFinish now p delivery = (s', result)) :
    s'.Caches ((p.catalogue? delivery).getD catalogue) := by
  rcases attemptFinish_cases half with
    ⟨answer, _, hfinish⟩ | ⟨fault, heard, _, hstopped, _, hleft⟩
  · exact h.of_finish hfinish
  · have hp : p.errand ≠ .exchangeInfo := by
      intro hp
      obtain ⟨outcome, hfinish⟩ := s.finish_isOk_of_exchangeInfo now hp delivery
      rw [hstopped] at hfinish
      cases hfinish
    rw [Pending.catalogue?_of_ne hp, hleft]
    exact h.of_same ((sameMarkets_settle s now.limiter p.reservation delivery).trans
      (onlyOrders_foldl_observe _ heard).sameMarkets)

end Session

namespace Dialogue

variable {d d' : Dialogue} {catalogue : List SymbolInfo}

/-- The catalogue that was taken in last, after one more move. -/
def catalogueAfter (catalogue : List SymbolInfo) (d : Dialogue) :
    Move → Checked Reaction → List SymbolInfo
  | .finish number _ delivery, _ =>
    match d.waiting[number]? with
    | some p => (p.catalogue? delivery).getD catalogue
    | none => catalogue
  | _, _ => catalogue

/-- Symbols and rules stay those of the catalogue that was taken in last. -/
theorem caches_of_attempt (h : d.session.Caches catalogue) {move : Move}
    {reaction : Checked Reaction} (hmove : d.attempt move = (d', reaction)) :
    d'.session.Caches (catalogueAfter catalogue d move reaction) := by
  cases attempted_of_attempt hmove with
  | sent half => exact h.of_same (Session.sameMarkets_of_attemptStart half)
  | refused half => exact h.of_same (Session.sameMarkets_of_attemptStart half)
  | unsent half => exact h.of_same (Session.sameMarkets_of_attemptStart half)
  | finished waits half =>
    simp only [catalogueAfter, waits]
    exact h.of_attemptFinish half
  | nothing gone =>
    simp only [catalogueAfter, gone]
    exact h
  | looked looks rolled =>
    rcases looks with ⟨tier, rfl⟩ | rfl <;> exact h.of_same ⟨rfl, rfl⟩
  | placed now => exact h.of_same ⟨rfl, rfl⟩
  | tracked o => exact h.of_same ⟨rfl, rfl⟩
  | updated u => exact h.of_same ⟨rfl, rfl⟩
  | acknowledged clientId => exact h.of_same ⟨rfl, rfl⟩
  | heard frame => exact h
  | subscribed pairs id => exact h

theorem caches_of_course {s : Session} (hs : s.Fresh) {moves : List Move}
    (h : course catalogueAfter (opening s) [] moves = (d, catalogue)) :
    d.session.Caches catalogue :=
  course_invariant (P := fun d catalogue => d.session.Caches catalogue)
    (fun _ _ _ _ _ hd hmove => caches_of_attempt hd hmove) (Session.caches_of_fresh hs) h

/-- After every course symbols and rules are those of one catalogue. -/
theorem caches_after {s : Session} (hs : s.Fresh) (moves : List Move) :
    ∃ catalogue, ((opening s).after moves).session.Caches catalogue := by
  rw [← course_fst catalogueAfter (opening s) [] moves]
  exact ⟨_, caches_of_course hs rfl⟩

/-- **Symbols and rules keep in step.**  After every course of a session, with any replies and at any
times and whatever was stopped:

* what can be looked up is what the catalogue says that was taken in last, so that a pair has a rule
  exactly if it is among the pairs of the symbols, and then the rule of its own entry, with its
  minimums, its tick and its step;
* starting a call changes neither symbols nor rules, whatever comes of it;
* and a call for a catalogue can always be finished: with an error that leaves both as they were,
  unless its delivery is a success that can be read and does not contradict itself; then both are
  those of that catalogue, and the answer are the rules of exactly the pairs that are open for
  trading, sorted strictly by pair. -/
theorem mirrors_of_course {s : Session} (hs : s.Fresh) {moves : List Move}
    (h : course catalogueAfter (opening s) [] moves = (d, catalogue)) :
    d.session.Mirrors catalogue ∧
    (∀ now expired call s' result, d.session.attemptStart now expired call = (s', result) →
      d.session.SameMarkets s' ∧
        ∀ p, result = .ok (.ok p) → (p.errand = .exchangeInfo ↔ call = .exchangeInfo)) ∧
    ∀ (p : Pending) now (delivery : Http.Delivery), p.errand = .exchangeInfo →
      match delivery.catalogue? with
      | some catalogue => ∃ s' rules,
          d.session.finish now p delivery = .ok (s', .ok (.rules rules)) ∧
          s'.Mirrors catalogue ∧ s'.Lists rules
      | none => ∃ s' error,
          d.session.finish now p delivery = .ok (s', .error error) ∧ d.session.SameMarkets s' := by
  refine ⟨(caches_of_course hs h).mirrors, ?_, ?_⟩
  · intro now expired call s' result half
    refine ⟨Session.sameMarkets_of_attemptStart half, ?_⟩
    rintro p rfl
    rcases Session.attemptStart_cases half with ⟨answer, hanswer, hstart⟩ | ⟨_, hstopped, _⟩
    · cases hanswer
      exact Session.errand_of_start hstart
    · cases hstopped
  · intro p now delivery hp
    split
    · rename_i catalogue hcatalogue
      obtain ⟨hconsistent, hfinish⟩ := d.session.finish_of_catalogue now hp hcatalogue
      have hcaches := Session.caches_withCatalogue (d.session.record p.reservation) hconsistent
      exact ⟨_, _, hfinish, hcaches.mirrors, hcaches.lists_openRules⟩
    · rename_i hcatalogue
      exact d.session.finish_without_catalogue now hp hcatalogue

/-- A symbol that is open for trading, with a tick of a hundredth. -/
def listed : SymbolInfo :=
  ⟨"ETH/XLM", some "TRADING", "ETH", "XLM", none, Decimal.make? 1 2, none, none⟩

def listedReply : Http.Delivery :=
  .reply ⟨200, "\x7b\"symbols\":[\x7b\"symbol\":\"ETH/XLM\",\"status\":\"TRADING\"," ++
    "\"baseAsset\":\"ETH\",\"quoteAsset\":\"XLM\",\"tickSize\":\"0.01\"\x7d]\x7d"⟩

/-- One pair under two symbols. -/
def conflictingReply : Http.Delivery :=
  .reply ⟨200, "\x7b\"symbols\":[" ++
    "\x7b\"symbol\":\"ETH/XLM\",\"baseAsset\":\"ETH\",\"quoteAsset\":\"XLM\"\x7d," ++
    "\x7b\"symbol\":\"ETHXLM\",\"baseAsset\":\"ETH\",\"quoteAsset\":\"XLM\"\x7d]\x7d"⟩

/-- A catalogue was taken in, and another one is asked for. -/
def renewed : List Move :=
  [.start (.still ⟨0, false⟩) false .exchangeInfo, .finish 0 (.still ⟨0, false⟩) listedReply,
    .start (.still ⟨0, false⟩) false .exchangeInfo]

/-- A catalogue that contradicts itself arrives, and the symbol keeps its rule. -/
theorem mirrors_afterConflict : ∃ s d catalogue,
    Session.create .default ⟨"key", "secret", none⟩ = .ok s ∧
    course catalogueAfter (opening s) [] renewed = (d, catalogue) ∧ catalogue = [listed] ∧
    (∃ rule, d.session.rule? "ETH-XLM" = some rule ∧ some rule.tick = Decimal.make? 1 2 ∧
      rule.step = .zero ∧ rule.minSize = .zero ∧ rule.minNotional = .zero) ∧
    "ETH-XLM" ∈ d.session.symbols.current.pairs ∧
    ∃ p ∈ d.waiting, ∃ s' error,
      d.session.finish (.still ⟨0, false⟩) p conflictingReply = .ok (s', .error error) ∧
      d.session.SameMarkets s' := by
  have hrenewed : (do
      let s ← (Session.create .default ⟨"key", "secret", none⟩).toOption
      let c := course catalogueAfter (opening s) [] renewed
      return (c.2, c.1.waiting.map Pending.errand)) = some ([listed], [.exchangeInfo]) := by
    decide +kernel
  simp only [Option.bind_eq_bind, Option.bind_eq_some_iff, toOption_eq_some_iff, Option.pure_def,
    Option.some.injEq, Prod.mk.injEq] at hrenewed
  obtain ⟨s, hs, hcatalogue, hwaiting⟩ := hrenewed
  obtain ⟨d, catalogue, hcourse⟩ :
      ∃ d catalogue, course catalogueAfter (opening s) [] renewed = (d, catalogue) := ⟨_, _, rfl⟩
  rw [hcourse] at hcatalogue hwaiting
  obtain ⟨hmirrors, _, hasked⟩ := mirrors_of_course (.created hs) hcourse
  simp only at hcatalogue hwaiting
  obtain ⟨rule, hrule⟩ : ∃ rule, d.session.rule? "ETH-XLM" = some rule := by
    refine ⟨_, (hmirrors.rule_iff "ETH-XLM" (listed.rule listed.pair)).mpr ?_⟩
    rw [hcatalogue]
    exact ⟨listed, List.mem_singleton_self listed, rfl, SymbolInfo.requires_iff.mpr rfl⟩
  obtain ⟨i, hi, -, hrequires⟩ := (hmirrors.rule_iff _ _).mp hrule
  rw [hcatalogue, List.mem_singleton] at hi
  rw [hi] at hrequires
  have hsilent : ∀ {required : Decimal}, SymbolInfo.Demands none required → required = .zero :=
    fun h => (SymbolInfo.demands_iff.mp h).symm
  have hdemands : (∃ rule, d.session.rule? "ETH-XLM" = some rule ∧
      some rule.tick = Decimal.make? 1 2 ∧ rule.step = .zero ∧ rule.minSize = .zero ∧
      rule.minNotional = .zero) := by
    refine ⟨rule, hrule, ?_, hsilent hrequires.step, hsilent hrequires.minSize,
      hsilent hrequires.minNotional⟩
    rcases hrequires.tick with htick | ⟨hnone, -⟩
    · exact htick.symm
    · cases hnone
  obtain ⟨p, hp, herrand⟩ : ∃ p ∈ d.waiting, p.errand = .exchangeInfo := by
    rw [← List.mem_map, hwaiting]
    exact List.mem_singleton_self _
  have hconflict : conflictingReply.catalogue? = none := by decide +kernel
  -- only this is needed of the reply, and not its text
  generalize conflictingReply = delivery at hconflict ⊢
  have hfinish := hasked p (.still ⟨0, false⟩) delivery herrand
  rw [hconflict] at hfinish
  exact ⟨s, d, catalogue, hs, hcourse, hcatalogue, hdemands,
    (hmirrors.hasRule_iff _).mp ⟨_, hrule⟩, p, hp, hfinish⟩

end Dialogue

end SpotGateway
