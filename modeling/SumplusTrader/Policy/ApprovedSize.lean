import SumplusTrader.Policy.EngineSafety

/-!
# The size of an approved trade

This file gives the amount of an approved trade in closed form: the smallest of the proposed
amount, the cap on a single trade and, for a trade that increases risk, the exposure room, in
whole cents (`approved_size_eq`). The engine reaches it by two returns and a comparison of
ratios.

The caps are applied before the amount is rounded, so the rounded amount can exceed them, or
be nothing. `size_within_caps_iff` says for which inputs it is positive and within its caps in
exact arithmetic. Floating point settles half a cent in either direction, so `size_within_caps`
keeps away from it.
-/

namespace SumplusTrader

/-- Rounding to cents goes down: less than half a cent is left over, or half a cent behind an
even number of cents. -/
def RoundsDown (q : ℚ) : Prop :=
  Int.fract (q * 100) < 1 / 2 ∨ Int.fract (q * 100) = 1 / 2 ∧ ⌊q * 100⌋ % 2 = 0

instance (q : ℚ) : Decidable (RoundsDown q) := inferInstanceAs (Decidable (_ ∨ _))

/-- The next whole cent above an amount. -/
def nextCent (q : ℚ) : ℚ := (⌊q * 100⌋ + 1) / 100

theorem roundHalfEven_of_down {q : ℚ}
    (down : Int.fract q < 1 / 2 ∨ Int.fract q = 1 / 2 ∧ ⌊q⌋ % 2 = 0) :
    Py.roundHalfEven q = ⌊q⌋ := by
  unfold Py.roundHalfEven
  rw [← Int.fract]
  rcases down with below | ⟨half, even⟩
  · rw [if_pos below]
  · rw [if_neg (by simp [half]), if_neg (by simp [half]), if_pos even]

theorem roundHalfEven_of_not_down {q : ℚ}
    (up : ¬(Int.fract q < 1 / 2 ∨ Int.fract q = 1 / 2 ∧ ⌊q⌋ % 2 = 0)) :
    Py.roundHalfEven q = ⌊q⌋ + 1 := by
  rw [not_or, not_and] at up
  unfold Py.roundHalfEven
  rw [← Int.fract, if_neg up.1]
  split_ifs with above even
  · rfl
  · exact absurd even (up.2 (le_antisymm (not_lt.1 above) (not_lt.1 up.1)))
  · rfl

theorem roundTo_two_of_down {q : ℚ} (down : RoundsDown q) : Py.roundTo 2 q = ⌊q * 100⌋ / 100 := by
  have scale : (10 : ℚ) ^ 2 = 100 := by norm_num
  rw [Py.roundTo, scale, roundHalfEven_of_down down]

theorem roundTo_two_of_not_down {q : ℚ} (up : ¬RoundsDown q) : Py.roundTo 2 q = nextCent q := by
  have scale : (10 : ℚ) ^ 2 = 100 := by norm_num
  rw [Py.roundTo, scale, roundHalfEven_of_not_down up, nextCent]
  push_cast
  rfl

/-- Rounding a number to cents stays within a bound of it when it goes down, or when the next
cent is within the bound. -/
theorem roundTo_two_le_iff {q bound : ℚ} (le : q ≤ bound) :
    Py.roundTo 2 q ≤ bound ↔ RoundsDown q ∨ nextCent q ≤ bound := by
  by_cases down : RoundsDown q
  · have floor : (⌊q * 100⌋ : ℚ) / 100 ≤ q := by
      rw [div_le_iff₀ (by norm_num)]
      exact Int.floor_le _
    rw [roundTo_two_of_down down]
    exact iff_of_true (floor.trans le) (.inl down)
  · rw [roundTo_two_of_not_down down, or_iff_right down]

namespace PolicyEngine

/-- What the cap on a single trade is meant to be. -/
def referenceCap (risk : Risk) (navUsd : ℚ) (rung : String) : ℚ :=
  let cap := if 0 < navUsd then min risk.maxSingleTradeUsd (navUsd * risk.maxSingleTradePct)
    else risk.maxSingleTradeUsd
  if rung = "halve_size" then cap / 2 else cap

/-- The trade is one whose exposure is capped. -/
def Constrained (engine : PolicyEngine) (decision : Decision) (portfolio : PortfolioView) : Prop :=
  engine.riskIncreasing decision ∧ 0 < portfolio.navUsd

instance (engine : PolicyEngine) (decision : Decision) (portfolio : PortfolioView) :
    Decidable (engine.Constrained decision portfolio) := inferInstanceAs (Decidable (_ ∧ _))

/-- The smallest of the proposed amount, the cap and the exposure room. -/
def referenceSize (engine : PolicyEngine) (decision : Decision) (portfolio : PortfolioView) : ℚ :=
  let cap := referenceCap engine.risk portfolio.navUsd (engine.ladderRung portfolio.drawdownPct)
  if engine.Constrained decision portfolio then
    min decision.amountUsd (min cap
      ((engine.risk.maxRiskyExposurePct - portfolio.riskyExposurePct) * portfolio.navUsd))
  else min decision.amountUsd cap

/-- No exposure room is left for the trade. -/
def Full (engine : PolicyEngine) (decision : Decision) (portfolio : PortfolioView) : Prop :=
  engine.Constrained decision portfolio ∧
    engine.risk.maxRiskyExposurePct ≤ portfolio.riskyExposurePct

instance (engine : PolicyEngine) (decision : Decision) (portfolio : PortfolioView) :
    Decidable (engine.Full decision portfolio) := inferInstanceAs (Decidable (_ ∧ _))

/-- The engine lets the trade through. -/
def Approves (engine : PolicyEngine) (decision : Decision) (portfolio : PortfolioView)
    (market : MarketView) : Prop :=
  engine.Passed decision portfolio market ∧ ¬engine.Full decision portfolio ∧
    (engine.ExceedsRoom decision portfolio ∨ engine.WithinRateLimit portfolio)

variable {engine : PolicyEngine} {decision : Decision} {portfolio : PortfolioView}
  {market : MarketView}

theorem roomPct_of_full (full : engine.Full decision portfolio) : engine.roomPct portfolio = 0 :=
  max_eq_left (sub_nonpos.2 full.2)

theorem riskyExposure_of_full (full : engine.Full decision portfolio) :
    ∃ reason rung, engine.riskyExposure decision portfolio = some (rejected reason rung) := by
  simp only [riskyExposure]
  rw [if_pos ⟨full.1.1, full.1.2⟩, if_pos (roomPct_of_full full).le]
  exact ⟨_, _, rfl⟩

/-- A trade with room that it does not exceed passes the exposure check. -/
theorem riskyExposure_eq_none (room : ¬engine.Full decision portfolio)
    (fits : ¬engine.ExceedsRoom decision portfolio) :
    engine.riskyExposure decision portfolio = none := by
  simp only [riskyExposure]
  by_cases constrained : engine.Constrained decision portfolio
  · have open' : portfolio.riskyExposurePct < engine.risk.maxRiskyExposurePct :=
      not_le.1 fun closed => room ⟨constrained, closed⟩
    have positive : ¬engine.roomPct portfolio ≤ 0 := by
      rw [roomPct_of_room_pos open', not_le, sub_pos]
      exact open'
    have small : ¬engine.roomPct portfolio < decision.amountUsd / portfolio.navUsd := by
      rw [roomPct_of_room_pos open']
      exact fun large => fits ⟨constrained.1, constrained.2, open', large⟩
    rw [if_pos ⟨constrained.1, constrained.2⟩, if_neg positive, if_neg small]
  · exact if_neg constrained

theorem sizeCap_eq (rung : String) :
    engine.sizeCap portfolio rung = referenceCap engine.risk portfolio.navUsd rung := rfl

theorem referenceSize_of_exceedsRoom (exceeds : engine.ExceedsRoom decision portfolio) :
    engine.referenceSize decision portfolio =
      min (engine.roomPct portfolio * portfolio.navUsd)
        (engine.sizeCap portfolio (engine.ladderRung portfolio.drawdownPct)) := by
  have larger := ((lt_div_iff₀ exceeds.nav_pos).1 exceeds.exceeds).le
  rw [referenceSize, if_pos ⟨exceeds.riskIncreasing, exceeds.nav_pos⟩,
    roomPct_of_room_pos exceeds.room_pos, sizeCap_eq, min_comm (referenceCap _ _ _), ← min_assoc,
    min_eq_right larger]

theorem referenceSize_of_fits (room : ¬engine.Full decision portfolio)
    (fits : ¬engine.ExceedsRoom decision portfolio) :
    engine.referenceSize decision portfolio = min decision.amountUsd
      (engine.sizeCap portfolio (engine.ladderRung portfolio.drawdownPct)) := by
  unfold referenceSize
  dsimp only
  split
  · next constrained =>
    have open' : portfolio.riskyExposurePct < engine.risk.maxRiskyExposurePct :=
      not_le.1 fun closed => room ⟨constrained, closed⟩
    have within : decision.amountUsd ≤
        (engine.risk.maxRiskyExposurePct - portfolio.riskyExposurePct) * portfolio.navUsd := by
      rw [← div_le_iff₀ constrained.2]
      exact not_lt.1 fun large => fits ⟨constrained.1, constrained.2, open', large⟩
    rw [sizeCap_eq, ← min_assoc]
    exact min_eq_left (min_le_of_left_le within)
  · rfl

/-- The verdict on a trade rejects it, or it approves the reference size in cents. -/
theorem check_spec (portfolio : PortfolioView) (market : MarketView) (trade : decision.isTrade) :
    (¬engine.Approves decision portfolio market ∧
        ∃ reason rung, engine.check decision portfolio market = rejected reason rung) ∨
      engine.Approves decision portfolio market ∧
        (engine.check decision portfolio market).allowed ∧
        (engine.check decision portfolio market).finalAmountUsd =
          Py.roundTo 2 (engine.referenceSize decision portfolio) := by
  by_cases passed : engine.Passed decision portfolio market
  · rw [check_of_passed trade passed]
    by_cases full : engine.Full decision portfolio
    · rcases riskyExposure_of_full full with ⟨reason, rung, rejects⟩
      rw [rejects]
      exact .inl ⟨fun approves => approves.2.1 full, reason, rung, rfl⟩
    by_cases exceeds : engine.ExceedsRoom decision portfolio
    · right
      rw [riskyExposure_of_exceedsRoom exceeds]
      refine ⟨⟨passed, full, .inl exceeds⟩, finalise_allowed _ _ _, ?_⟩
      rw [referenceSize_of_exceedsRoom exceeds]
      exact finalise_finalAmountUsd _ _ _
    · rw [riskyExposure_eq_none full exceeds, Option.none_or]
      by_cases within : engine.WithinRateLimit portfolio
      · right
        rw [rateLimit_eq_none_iff.2 within, Option.getD_none]
        refine ⟨⟨passed, full, .inr within⟩, finalise_allowed _ _ _, ?_⟩
        rw [referenceSize_of_fits full exceeds]
        exact finalise_finalAmountUsd _ _ _
      · rcases rateLimit_of_exhausted within with ⟨reason, rung, rate⟩
        rw [rate]
        refine .inl ⟨?_, reason, rung, rfl⟩
        rintro ⟨-, -, either⟩
        exact either.elim exceeds within
  · exact .inl ⟨fun approves => passed approves.1, check_of_not_passed trade passed⟩

theorem approves_iff_of_neutral (neutral : ¬engine.riskIncreasing decision) :
    engine.Approves decision portfolio market ↔
      engine.Passed decision portfolio market ∧ engine.WithinRateLimit portfolio := by
  have room : ¬engine.Full decision portfolio := fun full => neutral full.1.1
  have fits : ¬engine.ExceedsRoom decision portfolio :=
    fun exceeds => neutral exceeds.riskIncreasing
  rw [Approves, and_iff_right room, or_iff_right fits]

theorem referenceSize_of_neutral (neutral : ¬engine.riskIncreasing decision) :
    engine.referenceSize decision portfolio = min decision.amountUsd
      (engine.sizeCap portfolio (engine.ladderRung portfolio.drawdownPct)) :=
  referenceSize_of_fits (fun full => neutral full.1.1)
    fun exceeds => neutral exceeds.riskIncreasing

/-- What the engine is meant to approve of a trade that no other check stops: nothing when the
exposure is at its cap, and otherwise the reference size in cents. -/
def referenceApproval (engine : PolicyEngine) (decision : Decision) (portfolio : PortfolioView) :
    Option ℚ :=
  if engine.riskIncreasing decision ∧ 0 < portfolio.navUsd then
    if engine.risk.maxRiskyExposurePct ≤ portfolio.riskyExposurePct then none
    else some (Py.roundTo 2 (min decision.amountUsd
      (min (referenceCap engine.risk portfolio.navUsd (engine.ladderRung portfolio.drawdownPct))
        ((engine.risk.maxRiskyExposurePct - portfolio.riskyExposurePct) * portfolio.navUsd))))
  else some (Py.roundTo 2 (min decision.amountUsd
    (referenceCap engine.risk portfolio.navUsd (engine.ladderRung portfolio.drawdownPct))))

/-- The amount that a verdict approves. -/
def approval (verdict : PolicyVerdict) : Option ℚ :=
  if verdict.allowed then some verdict.finalAmountUsd else none

theorem referenceApproval_eq (engine : PolicyEngine) (decision : Decision)
    (portfolio : PortfolioView) :
    engine.referenceApproval decision portfolio =
      if engine.Full decision portfolio then none
      else some (Py.roundTo 2 (engine.referenceSize decision portfolio)) := by
  simp only [referenceApproval, referenceSize]
  by_cases constrained : engine.Constrained decision portfolio
  · have capped : engine.riskIncreasing decision ∧ 0 < portfolio.navUsd := constrained
    rw [if_pos constrained, if_pos capped]
    refine if_congr ?_ rfl rfl
    exact (and_iff_right constrained).symm
  · have uncapped : ¬(engine.riskIncreasing decision ∧ 0 < portfolio.navUsd) := constrained
    rw [if_neg constrained, if_neg uncapped, if_neg fun full => constrained full.1]

/-- **The approved size in closed form.** A trade on fresh data, on the whitelist, within the
rate limit and not blocked by its rung is rejected with amount zero where the reference
approves nothing, and approved with exactly the amount of the reference elsewhere. -/
theorem approved_size_eq (cfg : Config) (decision : Decision) (portfolio : PortfolioView)
    (market : MarketView) (trade : decision.isTrade)
    (passed : (ofConfig cfg).Passed decision portfolio market)
    (within : (ofConfig cfg).WithinRateLimit portfolio) :
    approval ((ofConfig cfg).check decision portfolio market) =
        (ofConfig cfg).referenceApproval decision portfolio ∧
      ((ofConfig cfg).referenceApproval decision portfolio = none →
        ((ofConfig cfg).check decision portfolio market).action = .reject ∧
          ((ofConfig cfg).check decision portfolio market).finalAmountUsd = 0) := by
  rw [referenceApproval_eq]
  rcases check_spec portfolio market trade with ⟨refused, reason, rung, verdict⟩ |
    ⟨approves, allowed, amount⟩
  · have full : (ofConfig cfg).Full decision portfolio := by
      by_contra room
      exact refused ⟨passed, room, .inr within⟩
    rw [verdict, if_pos full, approval, if_neg (not_allowed_rejected reason rung)]
    exact ⟨rfl, fun _ => ⟨rfl, rfl⟩⟩
  · rw [if_neg approves.2.1, approval, if_pos allowed, amount]
    exact ⟨rfl, fun none => by cases none⟩

theorem approved_size_eq_overRoomBuy :
    approval ((ofConfig injectiveConfig).check overRoomBuy ⟨100, 0, 0.15, 0, 1000000000⟩
        ⟨0, "risk_on"⟩) =
      (ofConfig injectiveConfig).referenceApproval overRoomBuy ⟨100, 0, 0.15, 0, 1000000000⟩ :=
  (approved_size_eq injectiveConfig overRoomBuy ⟨100, 0, 0.15, 0, 1000000000⟩ ⟨0, "risk_on"⟩
    (by decide +kernel)
    ⟨by decide +kernel, by decide +kernel, by decide +kernel, by decide +kernel,
      by decide +kernel, by decide +kernel⟩
    ⟨by decide +kernel, by decide +kernel⟩).1

theorem referenceSize_le (engine : PolicyEngine) (decision : Decision)
    (portfolio : PortfolioView) :
    engine.referenceSize decision portfolio ≤ min decision.amountUsd
      (referenceCap engine.risk portfolio.navUsd (engine.ladderRung portfolio.drawdownPct)) := by
  simp only [referenceSize]
  split
  · exact min_le_min le_rfl (min_le_left _ _)
  · exact le_rfl

/-- The amount of an approved trade is positive and at most the proposed amount and the cap on a
single trade exactly when the size exceeds half a cent, and it rounds down to cents or the next
cent is within both. -/
theorem size_within_caps_iff (cfg : Config) (decision : Decision) (portfolio : PortfolioView)
    (market : MarketView) (trade : decision.isTrade) :
    (((ofConfig cfg).check decision portfolio market).allowed →
        0 < ((ofConfig cfg).check decision portfolio market).finalAmountUsd ∧
          ((ofConfig cfg).check decision portfolio market).finalAmountUsd ≤ decision.amountUsd ∧
          ((ofConfig cfg).check decision portfolio market).finalAmountUsd ≤
            referenceCap cfg.risk portfolio.navUsd
              ((ofConfig cfg).ladderRung portfolio.drawdownPct)) ↔
      ((ofConfig cfg).Approves decision portfolio market →
        1 / 200 < (ofConfig cfg).referenceSize decision portfolio ∧
          (RoundsDown ((ofConfig cfg).referenceSize decision portfolio) ∨
            nextCent ((ofConfig cfg).referenceSize decision portfolio) ≤
              min decision.amountUsd (referenceCap cfg.risk portfolio.navUsd
                ((ofConfig cfg).ladderRung portfolio.drawdownPct)))) := by
  rcases check_spec portfolio market trade with ⟨refused, reason, rung, verdict⟩ |
    ⟨approves, allowed, amount⟩
  · rw [verdict]
    exact iff_of_true (fun allowed => absurd allowed (not_allowed_rejected reason rung))
      (fun approves => absurd approves refused)
  · have within := roundTo_two_le_iff (referenceSize_le (ofConfig cfg) decision portfolio)
    rw [amount, imp_iff_right allowed, imp_iff_right approves, Py.roundTo_two_pos_iff, ← le_min_iff]
    exact and_congr_right fun _ => within

/-- The size is clearly more than half a cent. It is clearly less than half a cent above a whole
number of cents, or the next whole cent is within the proposed amount and the cap. -/
structure ClearOfHalfCents (engine : PolicyEngine) (decision : Decision)
    (portfolio : PortfolioView) : Prop where
  positive : 0.0051 ≤ engine.referenceSize decision portfolio
  within : Int.fract (engine.referenceSize decision portfolio * 100) ≤ 0.49 ∨
    nextCent (engine.referenceSize decision portfolio) ≤ min decision.amountUsd
      (referenceCap engine.risk portfolio.navUsd (engine.ladderRung portfolio.drawdownPct))

/-- **Positive and within the caps.** The amount of an approved trade is positive and at most
the proposed amount and the cap on a single trade, as long as its size is clear of half cents. -/
theorem size_within_caps (cfg : Config) (decision : Decision) (portfolio : PortfolioView)
    (market : MarketView) (trade : decision.isTrade)
    (clear : (ofConfig cfg).Approves decision portfolio market →
      (ofConfig cfg).ClearOfHalfCents decision portfolio) :
    ((ofConfig cfg).check decision portfolio market).allowed →
      0 < ((ofConfig cfg).check decision portfolio market).finalAmountUsd ∧
        ((ofConfig cfg).check decision portfolio market).finalAmountUsd ≤ decision.amountUsd ∧
        ((ofConfig cfg).check decision portfolio market).finalAmountUsd ≤
          referenceCap cfg.risk portfolio.navUsd
            ((ofConfig cfg).ladderRung portfolio.drawdownPct) := by
  apply (size_within_caps_iff cfg decision portfolio market trade).2
  intro approves
  rcases clear approves with ⟨positive, down | next⟩
  · exact ⟨by linarith, .inl (.inl (by linarith))⟩
  · exact ⟨by linarith, .inr next⟩

/-- A sell of five dollars. -/
def fiveDollarSell : Decision := ⟨.sell, "injective", "INJ", "USDT", 5, 0.7, "exit INJ"⟩

/-- A portfolio without a drawdown whose last trade is long ago. -/
def quietPortfolio (nav : ℚ) : PortfolioView := ⟨nav, 0, 0.2, 0, 1000000000⟩

/-- A quarter of the net asset value is 1.9825. -/
theorem size_within_caps_fiveDollarSell :
    ((ofConfig injectiveConfig).check fiveDollarSell (quietPortfolio 7.93) ⟨0, "neutral"⟩).allowed ∧
      0 < ((ofConfig injectiveConfig).check fiveDollarSell (quietPortfolio 7.93)
          ⟨0, "neutral"⟩).finalAmountUsd ∧
        ((ofConfig injectiveConfig).check fiveDollarSell (quietPortfolio 7.93)
          ⟨0, "neutral"⟩).finalAmountUsd ≤ fiveDollarSell.amountUsd ∧
        ((ofConfig injectiveConfig).check fiveDollarSell (quietPortfolio 7.93)
          ⟨0, "neutral"⟩).finalAmountUsd ≤ referenceCap injectiveConfig.risk
            (quietPortfolio 7.93).navUsd
            ((ofConfig injectiveConfig).ladderRung (quietPortfolio 7.93).drawdownPct) := by
  have allowed : ((ofConfig injectiveConfig).check fiveDollarSell (quietPortfolio 7.93)
    ⟨0, "neutral"⟩).allowed := by decide +kernel
  refine ⟨allowed, size_within_caps injectiveConfig fiveDollarSell (quietPortfolio 7.93)
    ⟨0, "neutral"⟩ (by decide +kernel) (fun _ => ⟨by decide +kernel, .inl ?_⟩) allowed⟩
  decide +kernel

example : ((ofConfig injectiveConfig).check fiveDollarSell (quietPortfolio 7.93)
    ⟨0, "neutral"⟩).finalAmountUsd = 1.98 := by decide +kernel

/-- A quarter of the net asset value is 1.9975, and the engine approves 2.00. -/
theorem fiveDollarSell_approved_over_cap :
    fiveDollarSell.isTrade ∧ 0 < injectiveConfig.risk.maxSingleTradeUsd ∧
      0 < injectiveConfig.risk.maxSingleTradePct ∧ 0 < (quietPortfolio 7.99).navUsd ∧
      ((ofConfig injectiveConfig).check fiveDollarSell (quietPortfolio 7.99)
        ⟨0, "neutral"⟩).allowed ∧
      ¬((ofConfig injectiveConfig).check fiveDollarSell (quietPortfolio 7.99)
          ⟨0, "neutral"⟩).finalAmountUsd ≤
        min injectiveConfig.risk.maxSingleTradeUsd
          ((quietPortfolio 7.99).navUsd * injectiveConfig.risk.maxSingleTradePct) := by
  decide +kernel

end PolicyEngine

end SumplusTrader
