import SpotGateway.Proofs.Market.Grid
import SpotGateway.Proofs.Session.Faults
import SpotGateway.Proofs.Session.Gate

/-!
# Where the validation of an order is stopped

Before an order is sent it is rounded to the grid of its pair and checked against the minimums.
Both compute with decimals, and a quotient or a product that no decimal is near to stops the call
instead of being answered with an error.

* `Session.quantize_eq_error_iff`, `TradingRule.check_eq_error_iff`,
  `Session.checkOrder_eq_error_iff` — the two steps;
* `OrderRequest.Overtaxes`, `Session.Overtaxed` — orders that stop one of them;
* `Session.validation_eq_error_iff`, `Session.validation_stops_iff` — there is nothing else that
  stops them;
* `OrderRequest.not_overtaxes_of_ordinary` — amounts and prices that are not extreme never do.
-/

set_option autoImplicit false

namespace SpotGateway

open Decimal (Overflows)

/-- A check is stopped at the notional of an order that is large enough. -/
theorem TradingRule.check_eq_error_iff {rule : TradingRule} {amount : Decimal}
    {price : Option Decimal} {fault : Fault} : rule.check amount price = .error fault ↔
      fault = .decimalOverflow ∧ rule.minSize ≤ amount ∧
        ∃ p, price = some p ∧ Overflows (amount.value * p.value) := by
  unfold check
  split
  · rename_i hsmall
    simp [← Decimal.not_lt, hsmall]
  · rename_i hsize
    cases price with
    | none => simp
    | some price =>
      have hproduct : amount.mul price = .error fault ↔
          fault = .decimalOverflow ∧ Overflows (amount.value * price.value) :=
        (Decimal.computes_mul amount price).eq_error_iff
      simp only [bind_eq_error, hproduct, Option.some.injEq, exists_eq_left',
        Decimal.not_lt.mp hsize, true_and]
      constructor
      · rintro (h | ⟨notional, -, h⟩)
        · exact h
        · split at h <;> cases h
      · exact .inl

/-- What the rule of a pair makes too large to compute with: a number of steps or ticks, or the
notional of the rounded order, if its amount and price are positive and the amount is not below the
minimum. -/
inductive OrderRequest.Overtaxes (order : OrderRequest) (rule : TradingRule) : Prop where
  | amount (h : order.amount.Outgrows rule.step)
  | price {p : Decimal} (hprice : order.price = some p) (h : p.Outgrows rule.tick)
  | notional {amount p : Decimal} (hrounds : order.RoundsTo (some rule) amount (some p))
      (hamount : Decimal.zero < amount) (hsize : rule.minSize ≤ amount) (hpos : Decimal.zero < p)
      (h : Overflows (amount.value * p.value))

namespace Session

variable {s : Session} {order : OrderRequest} {fault : Fault}

theorem quantize_eq_error_iff : s.quantize order = .error fault ↔
    fault = .decimalOverflow ∧ ∃ rule, s.rule? order.pair = some rule ∧
      (order.amount.Outgrows rule.step ∨ ∃ p, order.price = some p ∧ p.Outgrows rule.tick) := by
  unfold quantize TradingRule.quantizeAmount TradingRule.quantizePrice
  cases s.rule? order.pair with
  | none => simp
  | some rule =>
    simp only [bind_eq_error, Decimal.roundDownTo_eq_error_iff, Option.some.injEq, exists_eq_left']
    cases order.price with
    | none => simp [pure, Except.pure]
    | some price =>
      simp only [bind_eq_error, Decimal.roundDownTo_eq_error_iff, Option.some.injEq,
        exists_eq_left', pure, Except.pure, reduceCtorEq, and_false, exists_false, or_false]
      constructor
      · rintro (⟨rfl, hamount⟩ | ⟨amount, -, rfl, hprice⟩)
        · exact ⟨rfl, .inl hamount⟩
        · exact ⟨rfl, .inr hprice⟩
      · rintro ⟨rfl, hamount | hprice⟩
        · exact .inl ⟨rfl, hamount⟩
        · cases hrounded : order.amount.roundDownTo rule.step with
          | ok amount => exact .inr ⟨amount, rfl, rfl, hprice⟩
          | error fault => exact .inl ⟨rfl, (Decimal.roundDownTo_eq_error_iff.mp hrounded).2⟩

/-- An order that can be rounded is rounded. -/
theorem quantize_of_roundsTo {rule : TradingRule} {amount : Decimal} {price : Option Decimal}
    (hrule : s.rule? order.pair = some rule) (h : order.RoundsTo (some rule) amount price) :
    s.quantize order = .ok { order with amount, price } := by
  obtain ⟨hamount, hprice⟩ := h
  unfold quantize
  simp only [hrule, hamount]
  cases horder : order.price with
  | none =>
    rw [horder] at hprice
    cases hprice
    rfl
  | some p =>
    rw [horder, Option.mapM_some] at hprice
    obtain ⟨p', hp', hprice⟩ := bind_eq_ok.mp hprice
    cases hprice
    simp only [hp']
    rfl

theorem checkOrder_eq_error_iff : s.checkOrder order = .error fault ↔
    fault = .decimalOverflow ∧ Decimal.zero < order.amount ∧
      ∃ rule p, s.rule? order.pair = some rule ∧ order.price = some p ∧ Decimal.zero < p ∧
        rule.minSize ≤ order.amount ∧ Overflows (order.amount.value * p.value) := by
  unfold checkOrder
  split
  · rename_i hamount
    simp [← Decimal.not_le, hamount]
  · rename_i hamount
    have hamount := Decimal.not_le.mp hamount
    cases hfault : priceFault order with
    | some reason =>
      simp only [reduceCtorEq, false_iff]
      rintro ⟨-, -, rule, p, -, hprice, hpos, -⟩
      rw [priceFault_eq_none_iff.mpr ⟨fun _ => ⟨p, hprice⟩, fun p' hp' => by
        rw [hprice] at hp'
        cases hp'
        exact hpos⟩] at hfault
      cases hfault
    | none =>
      have hpositive := (priceFault_eq_none_iff.mp hfault).2
      cases s.rule? order.pair with
      | none => simp
      | some rule =>
        simp only [bind_eq_error, TradingRule.check_eq_error_iff, Option.some.injEq,
          exists_and_left, exists_eq_left']
        constructor
        · rintro (⟨rfl, hsize, p, hprice, hlarge⟩ | ⟨verdict, -, h⟩)
          · exact ⟨rfl, hamount, p, hprice, hpositive p hprice, hsize, hlarge⟩
          · cases verdict <;> cases h
        · rintro ⟨rfl, -, p, hprice, -, hsize, hlarge⟩
          exact .inl ⟨rfl, hsize, p, hprice, hlarge⟩

/-- The rule of the order's pair makes something too large. -/
def Overtaxed (s : Session) (order : OrderRequest) : Prop :=
  ∃ rule, s.rule? order.pair = some rule ∧ order.Overtaxes rule

/-- **What stops the two steps.** -/
theorem validation_eq_error_iff : (s.quantize order >>= s.checkOrder) = .error fault ↔
    fault = .decimalOverflow ∧ s.Overtaxed order := by
  rw [bind_eq_error]
  constructor
  · rintro (h | ⟨rounded, hrounded, h⟩)
    · obtain ⟨rfl, rule, hrule, hamount | ⟨p, hprice, hp⟩⟩ := quantize_eq_error_iff.mp h
      · exact ⟨rfl, rule, hrule, .amount hamount⟩
      · exact ⟨rfl, rule, hrule, .price hprice hp⟩
    · obtain ⟨rfl, hamount, rule, p, hrule, hprice, hpos, hsize, hlarge⟩ :=
        checkOrder_eq_error_iff.mp h
      obtain ⟨hrounds, hpair, -, -⟩ := quantize_eq_ok hrounded
      rw [hpair] at hrule
      rw [hrule, hprice] at hrounds
      exact ⟨rfl, rule, hrule, .notional hrounds hamount hsize hpos hlarge⟩
  · rintro ⟨rfl, rule, hrule, hover⟩
    cases hover with
    | amount h => exact .inl (quantize_eq_error_iff.mpr ⟨rfl, rule, hrule, .inl h⟩)
    | price hprice h =>
      exact .inl (quantize_eq_error_iff.mpr ⟨rfl, rule, hrule, .inr ⟨_, hprice, h⟩⟩)
    | notional hrounds hamount hsize hpos hlarge =>
      exact .inr ⟨_, quantize_of_roundsTo hrule hrounds,
        checkOrder_eq_error_iff.mpr ⟨rfl, hamount, rule, _, hrule, rfl, hpos, hsize, hlarge⟩⟩

theorem plan_overflow_iff {now : Timestamp} {nonce : String} :
    s.plan now (.place order nonce) = .error .decimalOverflow ↔ s.Overtaxed order := by
  have hplan : s.plan now (.place order nonce) = s.planOrder now order nonce := rfl
  have hvalidation : (s.quantize order >>= s.checkOrder) = .error .decimalOverflow ↔
      s.Overtaxed order := validation_eq_error_iff.trans (and_iff_right rfl)
  rw [← hvalidation, hplan, planOrder, bind_eq_error, bind_eq_error]
  refine or_congr Iff.rfl (exists_congr fun rounded => and_congr_right fun _ => ?_)
  rw [bind_eq_error]
  constructor
  · rintro (h | ⟨verdict, -, h⟩)
    · exact h
    · -- after the checks only the exchange's time can stop the call
      cases verdict with
      | error reason => cases h
      | ok u =>
        simp only at h
        split at h
        · cases h
        · rcases bind_eq_error.mp h with hclock | ⟨createdAt, -, h⟩
          · cases (serverNow_eq_error_iff.mp hclock).1
          · cases h
  · exact .inl

/-- A reason for which an order does not pass is what the call is answered with. -/
theorem plan_of_invalid {now : Timestamp} {nonce : String} {reason : InvalidOrder}
    (h : (s.quantize order >>= s.checkOrder) = .ok (.error reason)) :
    s.plan now (.place order nonce) = .ok (.error (.invalidOrder reason)) := by
  have hplan : s.plan now (.place order nonce) = s.planOrder now order nonce := rfl
  obtain ⟨rounded, hquantize, hcheck⟩ := bind_eq_ok.mp h
  rw [hplan, planOrder, hquantize]
  simp only [bind, Except.bind, hcheck]
  rfl

/-- **When the validation of an order is stopped.**  For every session, whatever rules it has, every
order and every time: rounding and checking come to an end, with nothing wrong or with a reason that
the call is answered with, exactly if the rule of the order's pair does not make a number of steps,
a number of ticks or the notional too large.  If it does, the call is stopped. -/
theorem validation_stops_iff (s : Session) (order : OrderRequest) (now : Timestamp)
    (nonce : String) :
    ((s.quantize order >>= s.checkOrder) = .ok (.ok ()) ∨
        (∃ reason, (s.quantize order >>= s.checkOrder) = .ok (.error reason) ∧
          s.plan now (.place order nonce) = .ok (.error (.invalidOrder reason))) ↔
      ¬ s.Overtaxed order) ∧
    (s.plan now (.place order nonce) = .error .decimalOverflow ↔ s.Overtaxed order) := by
  refine ⟨?_, plan_overflow_iff⟩
  have hstopped : ∀ fault, (s.quantize order >>= s.checkOrder) = .error fault ↔
      fault = .decimalOverflow ∧ s.Overtaxed order := fun fault => validation_eq_error_iff
  cases hvalidation : s.quantize order >>= s.checkOrder with
  | error fault => simp [((hstopped fault).mp hvalidation).2]
  | ok verdict =>
    have hnot : ¬ s.Overtaxed order := fun hover => by
      rw [(hstopped _).mpr ⟨rfl, hover⟩] at hvalidation
      cases hvalidation
    cases verdict with
    | ok u => simp [hnot]
    | error reason => simp [hnot, plan_of_invalid hvalidation]

/-- An order whose amount and price are large. -/
def enormous : OrderRequest :=
  ⟨"ETH-XLM", .buy, .limit, ⟨false, 10 ^ 15, 0, by decide, Nat.zero_le _⟩,
    some ⟨false, 10 ^ 15, 0, by decide, Nat.zero_le _⟩⟩

/-- A session that was told of a pair without any filters is stopped at the notional. -/
theorem stopped_of_enormous : ∃ s : Session,
    Session.create .default ⟨"key", "secret", none⟩ = .ok s ∧
      (s.learnPair.quantize enormous >>= s.learnPair.checkOrder) = .error .decimalOverflow ∧
      s.learnPair.plan ⟨0, false⟩ (.place enormous "0123456789abcdef") =
        .error .decimalOverflow :=
  ⟨_, rfl, rfl, rfl⟩

end Session

/-! ## Ordinary orders -/

/-- Amount and price of the order and step and tick of the rule are ordinary. -/
structure OrderRequest.Ordinary (order : OrderRequest) (rule : TradingRule) : Prop where
  amount : order.amount.Moderate
  price : ∀ p, order.price = some p → p.Moderate
  step : rule.step.Coarse
  tick : rule.tick.Coarse

/-- **Ordinary orders stop nothing.**  With amount and price from zero to `10 ^ 14`, and with step
and tick of at least `1 / 10 ^ 14` or none, nothing is too large. -/
theorem OrderRequest.not_overtaxes_of_ordinary {order : OrderRequest} {rule : TradingRule}
    (h : order.Ordinary rule) : ¬ order.Overtaxes rule := by
  intro hover
  cases hover with
  | amount hlarge => exact h.amount.not_outgrows h.step hlarge
  | price hprice hlarge => exact (h.price _ hprice).not_outgrows h.tick hlarge
  | @notional amount p hrounds _ _ _ hlarge =>
    obtain ⟨hamount, hprice⟩ := hrounds
    obtain ⟨hlow, hhigh⟩ := h.amount.roundDownTo_le h.step hamount
    cases horder : order.price with
    | none =>
      rw [horder] at hprice
      cases hprice
    | some asked =>
      rw [horder, Option.mapM_some] at hprice
      obtain ⟨p', hp', hprice⟩ := bind_eq_ok.mp hprice
      cases hprice
      obtain ⟨hlow', hhigh'⟩ := (h.price asked horder).roundDownTo_le h.tick hp'
      have hnotional : amount.value * p.value ≤ 2 * 10 ^ 14 * (2 * 10 ^ 14) := by gcongr
      rw [Overflows, abs_of_nonneg (by positivity)] at hlarge
      linarith [Decimal.coefficientLimit_gt]

end SpotGateway
