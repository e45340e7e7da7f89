import SumplusTrader.Policy.Engine

/-!
# What an approved trade has passed

This file inverts `PolicyEngine.check`. An approved trade has passed the first
three checks, and then either was clamped to the exposure room or passed the
exposure check and the rate limit (`check_cases`).

The clamp returns before the rate limit is read. `approval_respects_rateLimit_iff`
says which inputs are affected: the buys that exceed a positive exposure room.
-/

namespace SumplusTrader

namespace PolicyEngine

/-- The first three checks let the trade through. -/
structure Passed (engine : PolicyEngine) (decision : Decision) (portfolio : PortfolioView)
    (market : MarketView) : Prop where
  fresh : market.dataAgeS ≤ engine.maxDataAge.value
  fromCommitted : Py.upper decision.fromToken ∈ engine.allowedTokens
  toCommitted : Py.upper decision.toToken ∈ engine.allowedTokens
  pairCommitted : (decision.chain, Py.upper decision.fromToken, Py.upper decision.toToken) ∈
    engine.allowedPairs
  lockdown : engine.ladderRung portfolio.drawdownPct = "stablecoin_mode" →
    engine.riskReducing decision
  noNewRisk : engine.ladderRung portfolio.drawdownPct = "no_new_risk" →
    ¬engine.riskIncreasing decision

/-- The rate limit lets a trade through. -/
def WithinRateLimit (engine : PolicyEngine) (portfolio : PortfolioView) : Prop :=
  (portfolio.tradesLastHour : ℚ) < engine.risk.maxTradesPerHour.value ∧
    engine.risk.minTradeIntervalSeconds.value ≤ portfolio.secondsSinceLastTrade

/-- A buy that exceeds a positive exposure room. -/
structure ExceedsRoom (engine : PolicyEngine) (decision : Decision)
    (portfolio : PortfolioView) : Prop where
  riskIncreasing : engine.riskIncreasing decision
  nav_pos : 0 < portfolio.navUsd
  room_pos : portfolio.riskyExposurePct < engine.risk.maxRiskyExposurePct
  exceeds : engine.risk.maxRiskyExposurePct - portfolio.riskyExposurePct <
    decision.amountUsd / portfolio.navUsd

variable {engine : PolicyEngine} {decision : Decision} {portfolio : PortfolioView}
  {market : MarketView}

theorem staleData_eq_none_iff :
    engine.staleData portfolio market = none ↔ market.dataAgeS ≤ engine.maxDataAge.value := by
  rw [staleData, ite_eq_right_iff, ← not_lt]
  simp

theorem ruleAdherence_eq_none_iff :
    engine.ruleAdherence decision portfolio = none ↔
      Py.upper decision.fromToken ∈ engine.allowedTokens ∧
        Py.upper decision.toToken ∈ engine.allowedTokens ∧
        (decision.chain, Py.upper decision.fromToken, Py.upper decision.toToken) ∈
          engine.allowedPairs := by
  simp only [ruleAdherence]
  split_ifs with tokens pair
  · rw [false_iff]
    rintro ⟨fromMem, toMem, -⟩
    rcases tokens with missing | missing
    · exact missing fromMem
    · exact missing toMem
  · rw [not_or, not_not, not_not] at tokens
    exact ⟨fun _ => ⟨tokens.1, tokens.2, pair⟩, fun _ => rfl⟩
  · simp [pair]

theorem drawdownLadder_eq_none_iff :
    engine.drawdownLadder decision portfolio = none ↔
      (engine.ladderRung portfolio.drawdownPct = "stablecoin_mode" →
        engine.riskReducing decision) ∧
      (engine.ladderRung portfolio.drawdownPct = "no_new_risk" →
        ¬engine.riskIncreasing decision) := by
  simp only [drawdownLadder]
  split_ifs with lockdown noNewRisk
  · rw [false_iff]
    intro permitted
    exact lockdown.2 (permitted.1 lockdown.1)
  · rw [false_iff]
    intro permitted
    exact permitted.2 noNewRisk.1 noNewRisk.2
  · refine ⟨fun _ => ⟨?_, ?_⟩, fun _ => rfl⟩
    · intro rung
      by_contra increasing
      exact lockdown ⟨rung, increasing⟩
    · intro rung increasing
      exact noNewRisk ⟨rung, increasing⟩

theorem passed_iff :
    engine.Passed decision portfolio market ↔
      engine.staleData portfolio market = none ∧
        engine.ruleAdherence decision portfolio = none ∧
        engine.drawdownLadder decision portfolio = none := by
  rw [staleData_eq_none_iff, ruleAdherence_eq_none_iff, drawdownLadder_eq_none_iff]
  constructor
  · rintro ⟨fresh, fromMem, toMem, pair, lockdown, noNewRisk⟩
    exact ⟨fresh, ⟨fromMem, toMem, pair⟩, lockdown, noNewRisk⟩
  · rintro ⟨fresh, ⟨fromMem, toMem, pair⟩, lockdown, noNewRisk⟩
    exact ⟨fresh, fromMem, toMem, pair, lockdown, noNewRisk⟩

theorem rateLimit_eq_none_iff :
    engine.rateLimit portfolio = none ↔ engine.WithinRateLimit portfolio := by
  simp only [rateLimit, WithinRateLimit]
  split_ifs with tooMany tooSoon
  · simp [tooMany]
  · simp [tooSoon]
  · rw [not_le] at tooMany
    rw [not_lt] at tooSoon
    exact ⟨fun _ => ⟨tooMany, tooSoon⟩, fun _ => rfl⟩

theorem rateLimit_of_exhausted (exhausted : ¬engine.WithinRateLimit portfolio) :
    ∃ reason rung, engine.rateLimit portfolio = some (rejected reason rung) := by
  simp only [rateLimit]
  split_ifs with tooMany tooSoon
  · exact ⟨_, _, rfl⟩
  · exact ⟨_, _, rfl⟩
  · exact absurd ⟨not_le.1 tooMany, not_lt.1 tooSoon⟩ exhausted

theorem roomPct_of_room_pos (room : portfolio.riskyExposurePct < engine.risk.maxRiskyExposurePct) :
    engine.roomPct portfolio =
      engine.risk.maxRiskyExposurePct - portfolio.riskyExposurePct :=
  max_eq_right (by linarith)

/-- The clamp of the exposure check. -/
def exposureClamp (engine : PolicyEngine) (portfolio : PortfolioView) : PolicyVerdict :=
  engine.finalise portfolio (engine.roomPct portfolio * portfolio.navUsd)
    (engine.ladderRung portfolio.drawdownPct)
    ("clamped to exposure room (" ++ Py.fixedText 1 (engine.roomPct portfolio * 100) ++
      "% of NAV)")

/-- The exposure check rejects, clamps a trade that exceeds the room, or lets a
trade through that fits. -/
theorem riskyExposure_cases (engine : PolicyEngine) (decision : Decision)
    (portfolio : PortfolioView) :
    (∃ reason rung, engine.riskyExposure decision portfolio = some (rejected reason rung)) ∨
      (engine.ExceedsRoom decision portfolio ∧
        engine.riskyExposure decision portfolio = some (engine.exposureClamp portfolio)) ∨
      ((engine.riskIncreasing decision → 0 < portfolio.navUsd →
          decision.amountUsd / portfolio.navUsd ≤ engine.roomPct portfolio) ∧
        engine.riskyExposure decision portfolio = none) := by
  simp only [riskyExposure]
  split_ifs with constrained full exceeds
  · exact Or.inl ⟨_, _, rfl⟩
  · rw [not_le, roomPct, lt_max_iff, lt_self_iff_false, false_or, sub_pos] at full
    rw [roomPct_of_room_pos full] at exceeds
    exact Or.inr (Or.inl ⟨⟨constrained.1, constrained.2, full, exceeds⟩, rfl⟩)
  · exact Or.inr (Or.inr ⟨fun _ _ => not_lt.1 exceeds, rfl⟩)
  · refine Or.inr (Or.inr ⟨?_, rfl⟩)
    intro increasing navPos
    exact absurd ⟨increasing, navPos⟩ constrained

theorem riskyExposure_of_exceedsRoom (exceeds : engine.ExceedsRoom decision portfolio) :
    engine.riskyExposure decision portfolio = some (engine.exposureClamp portfolio) := by
  have room := roomPct_of_room_pos exceeds.room_pos
  have positive : ¬engine.roomPct portfolio ≤ 0 := by
    rw [room]
    linarith [exceeds.room_pos]
  have larger : engine.roomPct portfolio < decision.amountUsd / portfolio.navUsd := by
    rw [room]
    exact exceeds.exceeds
  simp only [riskyExposure]
  rw [if_pos ⟨exceeds.riskIncreasing, exceeds.nav_pos⟩, if_neg positive, if_pos larger]
  rfl

theorem finalise_allowed (amount : ℚ) (rung reason : String) :
    (engine.finalise portfolio amount rung reason).allowed := by
  simp only [finalise]
  split
  · exact Or.inr rfl
  · exact Or.inl rfl

theorem finalise_kind (amount : ℚ) (rung reason : String) :
    (engine.finalise portfolio amount rung reason).kind ≠ .hold := by
  simp only [finalise]
  split <;> simp

theorem finalise_finalAmountUsd (amount : ℚ) (rung reason : String) :
    (engine.finalise portfolio amount rung reason).finalAmountUsd =
      Py.roundTo 2 (min amount (engine.sizeCap portfolio rung)) := by
  simp only [finalise]
  split <;> rfl

theorem not_allowed_rejected (reason rung : String) : ¬(rejected reason rung).allowed := by
  simp [rejected, PolicyVerdict.allowed]

theorem check_of_not_isTrade (idle : ¬decision.isTrade) :
    engine.check decision portfolio market = ⟨.allow, .hold, 0, "hold — no action", "none"⟩ :=
  if_pos idle

theorem check_of_passed (trade : decision.isTrade)
    (passed : engine.Passed decision portfolio market) :
    engine.check decision portfolio market =
      ((engine.riskyExposure decision portfolio).or (engine.rateLimit portfolio)).getD
        (engine.finalise portfolio decision.amountUsd
          (engine.ladderRung portfolio.drawdownPct) "within policy") := by
  rcases passed_iff.1 passed with ⟨fresh, rules, ladder⟩
  rw [check, if_neg (not_not.2 trade), fresh, rules, ladder]
  rfl

theorem check_of_not_passed (trade : decision.isTrade)
    (stopped : ¬engine.Passed decision portfolio market) :
    ∃ reason rung, engine.check decision portfolio market = rejected reason rung := by
  rw [passed_iff] at stopped
  rw [check, if_neg (not_not.2 trade)]
  have staleRejects : ∀ verdict, engine.staleData portfolio market = some verdict →
      ∃ reason rung, verdict = rejected reason rung := by
    intro verdict found
    simp only [staleData, Option.ite_none_right_eq_some, Option.some.injEq] at found
    exact ⟨_, _, found.2.symm⟩
  have ruleRejects : ∀ verdict, engine.ruleAdherence decision portfolio = some verdict →
      ∃ reason rung, verdict = rejected reason rung := by
    intro verdict found
    simp only [ruleAdherence] at found
    split_ifs at found
    · exact ⟨_, _, (Option.some.inj found).symm⟩
    · exact ⟨_, _, (Option.some.inj found).symm⟩
    · exact ⟨_, _, (Option.some.inj found).symm⟩
  have ladderRejects : ∀ verdict, engine.drawdownLadder decision portfolio = some verdict →
      ∃ reason rung, verdict = rejected reason rung := by
    intro verdict found
    simp only [drawdownLadder] at found
    split_ifs at found
    · exact ⟨_, _, (Option.some.inj found).symm⟩
    · exact ⟨_, _, (Option.some.inj found).symm⟩
  cases stale : engine.staleData portfolio market with
  | some verdict => exact staleRejects verdict stale
  | none =>
      cases rules : engine.ruleAdherence decision portfolio with
      | some verdict => exact ruleRejects verdict rules
      | none =>
          cases ladder : engine.drawdownLadder decision portfolio with
          | some verdict => exact ladderRejects verdict ladder
          | none => exact absurd ⟨stale, rules, ladder⟩ stopped

/-- A verdict on a trade is a rejection, a clamp to the exposure room, or the
outcome of the size caps on a trade that passed every check. -/
theorem check_cases (engine : PolicyEngine) (portfolio : PortfolioView) (market : MarketView)
    (trade : decision.isTrade) :
    (∃ reason rung, engine.check decision portfolio market = rejected reason rung) ∨
      (engine.Passed decision portfolio market ∧ engine.ExceedsRoom decision portfolio ∧
        engine.check decision portfolio market = engine.exposureClamp portfolio) ∨
      (engine.Passed decision portfolio market ∧
        (engine.riskIncreasing decision → 0 < portfolio.navUsd →
          decision.amountUsd / portfolio.navUsd ≤ engine.roomPct portfolio) ∧
        engine.WithinRateLimit portfolio ∧
        engine.check decision portfolio market =
          engine.finalise portfolio decision.amountUsd
            (engine.ladderRung portfolio.drawdownPct) "within policy") := by
  by_cases passed : engine.Passed decision portfolio market
  · rw [check_of_passed trade passed]
    rcases riskyExposure_cases engine decision portfolio with
      ⟨reason, rung, exposure⟩ | ⟨exceeds, exposure⟩ | ⟨fits, exposure⟩
    · exact Or.inl ⟨reason, rung, by rw [exposure]; rfl⟩
    · exact Or.inr (Or.inl ⟨passed, exceeds, by rw [exposure]; rfl⟩)
    · rw [exposure]
      by_cases within : engine.WithinRateLimit portfolio
      · rw [rateLimit_eq_none_iff.2 within]
        exact Or.inr (Or.inr ⟨passed, fits, within, rfl⟩)
      · rcases rateLimit_of_exhausted within with ⟨reason, rung, rate⟩
        exact Or.inl ⟨reason, rung, by rw [rate]; rfl⟩
  · exact Or.inl (check_of_not_passed trade passed)

theorem passed_of_allowed (trade : decision.isTrade)
    (allowed : (engine.check decision portfolio market).allowed) :
    engine.Passed decision portfolio market := by
  rcases check_cases engine portfolio market trade with
    ⟨reason, rung, verdict⟩ | ⟨passed, -⟩ | ⟨passed, -⟩
  · rw [verdict] at allowed
    exact absurd allowed (not_allowed_rejected reason rung)
  · exact passed
  · exact passed

theorem kind_ne_hold_of_allowed (trade : decision.isTrade)
    (allowed : (engine.check decision portfolio market).allowed) :
    (engine.check decision portfolio market).kind ≠ .hold := by
  rcases check_cases engine portfolio market trade with
    ⟨reason, rung, verdict⟩ | ⟨-, -, verdict⟩ | ⟨-, -, -, verdict⟩
  · rw [verdict] at allowed
    exact absurd allowed (not_allowed_rejected reason rung)
  · rw [verdict, exposureClamp]
    exact finalise_kind _ _ _
  · rw [verdict]
    exact finalise_kind _ _ _

theorem roundTo_cents_le (q : ℚ) : Py.roundTo 2 q ≤ q + 1 / 200 := by
  have bound := Py.roundTo_le 2 q
  norm_num at bound ⊢
  exact bound

/-- The amount of an approved trade is at most the proposed amount in cents. -/
theorem finalAmountUsd_le_roundTo (trade : decision.isTrade)
    (allowed : (engine.check decision portfolio market).allowed) :
    (engine.check decision portfolio market).finalAmountUsd ≤
      Py.roundTo 2 decision.amountUsd := by
  rcases check_cases engine portfolio market trade with
    ⟨reason, rung, verdict⟩ | ⟨-, exceeds, verdict⟩ | ⟨-, -, -, verdict⟩
  · rw [verdict] at allowed
    exact absurd allowed (not_allowed_rejected reason rung)
  · rw [verdict, exposureClamp, finalise_finalAmountUsd]
    apply Py.roundTo_mono
    apply min_le_of_left_le
    rw [roomPct_of_room_pos exceeds.room_pos]
    exact ((lt_div_iff₀ exceeds.nav_pos).1 exceeds.exceeds).le
  · rw [verdict, finalise_finalAmountUsd]
    exact Py.roundTo_mono 2 (min_le_left _ _)

/-- The amount of an approved trade that increases risk fits into the exposure room, up
to half a cent. -/
theorem finalAmountUsd_le_room (trade : decision.isTrade)
    (allowed : (engine.check decision portfolio market).allowed)
    (increasing : engine.riskIncreasing decision) (nav : 0 < portfolio.navUsd) :
    (engine.check decision portfolio market).finalAmountUsd ≤
      (engine.risk.maxRiskyExposurePct - portfolio.riskyExposurePct) * portfolio.navUsd +
        1 / 200 := by
  rcases check_cases engine portfolio market trade with
    ⟨reason, rung, verdict⟩ | ⟨-, exceeds, verdict⟩ | ⟨-, fits, -, verdict⟩
  · rw [verdict] at allowed
    exact absurd allowed (not_allowed_rejected reason rung)
  · rw [verdict, exposureClamp, finalise_finalAmountUsd, roomPct_of_room_pos exceeds.room_pos]
    refine le_trans (roundTo_cents_le _) ?_
    exact add_le_add (min_le_left _ _) le_rfl
  · have share := fits increasing nav
    have positive : 0 < engine.roomPct portfolio := lt_of_lt_of_le (div_pos trade.2 nav) share
    rw [roomPct, lt_max_iff, lt_self_iff_false, false_or, sub_pos] at positive
    rw [roomPct_of_room_pos positive, div_le_iff₀ nav] at share
    rw [verdict, finalise_finalAmountUsd]
    refine le_trans (roundTo_cents_le _) ?_
    exact add_le_add (min_le_of_left_le share) le_rfl

/-- An approval respects the rate limit exactly when the limit has room or the
trade does not reach the clamp to the exposure room. -/
theorem approval_respects_rateLimit_iff (cfg : Config) (decision : Decision)
    (portfolio : PortfolioView) (market : MarketView) (trade : decision.isTrade) :
    (((ofConfig cfg).check decision portfolio market).allowed →
        (portfolio.tradesLastHour : ℚ) < cfg.risk.maxTradesPerHour.value ∧
          cfg.risk.minTradeIntervalSeconds.value ≤ portfolio.secondsSinceLastTrade) ↔
      (ofConfig cfg).WithinRateLimit portfolio ∨
        ¬((ofConfig cfg).Passed decision portfolio market ∧
          (ofConfig cfg).ExceedsRoom decision portfolio) := by
  constructor
  · intro respects
    by_contra reached
    rw [not_or, not_not] at reached
    rcases reached with ⟨exhausted, passed, exceeds⟩
    apply exhausted
    apply respects
    rw [check_of_passed trade passed, riskyExposure_of_exceedsRoom exceeds]
    exact finalise_allowed _ _ _
  · intro condition allowed
    rcases check_cases (ofConfig cfg) portfolio market trade with
      ⟨reason, rung, verdict⟩ | ⟨passed, exceeds, -⟩ | ⟨-, -, within, -⟩
    · rw [verdict] at allowed
      exact absurd allowed (not_allowed_rejected reason rung)
    · rcases condition with within | avoided
      · exact within
      · exact absurd ⟨passed, exceeds⟩ avoided
    · exact within

/-- A buy for half of the net asset value when a twentieth of it is left as room. -/
def overRoomBuy : Decision := ⟨.buy, "injective", "USDT", "INJ", 50, 0.7, "enter INJ"⟩

/-- A portfolio whose hourly limit is used up and that has just traded. -/
def exhaustedPortfolio : PortfolioView := ⟨100, 0, 0.15, 4, 0⟩

theorem overRoomBuy_approved_over_rateLimit :
    overRoomBuy.isTrade ∧
      ((ofConfig injectiveConfig).check overRoomBuy exhaustedPortfolio ⟨0, "risk_on"⟩).allowed ∧
      ¬((exhaustedPortfolio.tradesLastHour : ℚ) < injectiveConfig.risk.maxTradesPerHour.value ∧
        injectiveConfig.risk.minTradeIntervalSeconds.value ≤
          exhaustedPortfolio.secondsSinceLastTrade) := by
  decide +kernel

theorem approval_respects_rateLimit_iff_overRoomBuy :
    (((ofConfig injectiveConfig).check overRoomBuy exhaustedPortfolio
          ⟨0, "risk_on"⟩).allowed →
        (exhaustedPortfolio.tradesLastHour : ℚ) < injectiveConfig.risk.maxTradesPerHour.value ∧
          injectiveConfig.risk.minTradeIntervalSeconds.value ≤
            exhaustedPortfolio.secondsSinceLastTrade) ↔
      (ofConfig injectiveConfig).WithinRateLimit exhaustedPortfolio ∨
        ¬((ofConfig injectiveConfig).Passed overRoomBuy exhaustedPortfolio ⟨0, "risk_on"⟩ ∧
          (ofConfig injectiveConfig).ExceedsRoom overRoomBuy exhaustedPortfolio) :=
  approval_respects_rateLimit_iff injectiveConfig overRoomBuy exhaustedPortfolio
    ⟨0, "risk_on"⟩ (by decide +kernel)

end PolicyEngine

end SumplusTrader
