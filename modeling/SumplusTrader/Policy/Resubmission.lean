import SumplusTrader.Policy.ApprovedSize

/-!
# Resubmitted trades

This file looks at the verdicts of the engine on one trade at different sizes. The size of an
approved trade is cut off at a limit and rounded to cents, and a cut followed by a rounding is a
monotone map that does nothing the second time (`round_cut_again`).

A trade that comes back at its approved size is therefore approved at that size again, as far as
the rate limit lets it: a clamp to the exposure room returns before the rate limit is read, and the
clamped trade does not exceed the room any more. `resubmitted_iff` says when it comes through.
-/

namespace SumplusTrader

section Cut

variable {α : Type} [LinearOrder α] {round : α → α}

/-- Cutting and rounding what was cut and rounded changes nothing. -/
theorem round_cut_again (mono : Monotone round) (stable : ∀ x, round (round x) = round x)
    (limit x : α) : round (min (round (min x limit)) limit) = round (min x limit) := by
  rw [mono.map_min, stable]
  exact min_eq_left (mono (min_le_right x limit))

end Cut

/-- The trade at another size. -/
def Decision.resized (decision : Decision) (amountUsd : ℚ) : Decision :=
  { decision with amountUsd := amountUsd }

namespace PolicyEngine

variable {engine : PolicyEngine} {decision : Decision} {portfolio : PortfolioView}
  {market : MarketView} {amount : ℚ}

/-- The cap on a single trade, or the exposure room where it is smaller. -/
def limit (engine : PolicyEngine) (decision : Decision) (portfolio : PortfolioView) : ℚ :=
  let cap := referenceCap engine.risk portfolio.navUsd (engine.ladderRung portfolio.drawdownPct)
  if engine.Constrained decision portfolio then
    min cap ((engine.risk.maxRiskyExposurePct - portfolio.riskyExposurePct) * portfolio.navUsd)
  else cap

theorem referenceSize_resized (amount : ℚ) :
    engine.referenceSize (decision.resized amount) portfolio =
      min amount (engine.limit decision portfolio) := by
  unfold referenceSize limit
  by_cases constrained : engine.Constrained decision portfolio
  · have same : engine.Constrained (decision.resized amount) portfolio := constrained
    rw [if_pos constrained, if_pos same]
    rfl
  · have same : ¬engine.Constrained (decision.resized amount) portfolio := constrained
    rw [if_neg constrained, if_neg same]
    rfl

theorem passed_resized (amount : ℚ) (passed : engine.Passed decision portfolio market) :
    engine.Passed (decision.resized amount) portfolio market :=
  ⟨passed.fresh, passed.fromCommitted, passed.toCommitted, passed.pairCommitted, passed.lockdown,
    passed.noNewRisk⟩

/-- An approved trade is approved at another size exactly when that exceeds the room as well, or
the rate limit has room. -/
theorem approves_resized_iff (approves : engine.Approves decision portfolio market) :
    engine.Approves (decision.resized amount) portfolio market ↔
      engine.ExceedsRoom (decision.resized amount) portfolio ∨
        engine.WithinRateLimit portfolio := by
  have passed := passed_resized amount approves.1
  have open' : ¬engine.Full (decision.resized amount) portfolio := approves.2.1
  rw [Approves, and_iff_right passed, and_iff_right open']

theorem approval_of_approves (trade : decision.isTrade)
    (approves : engine.Approves decision portfolio market) :
    approval (engine.check decision portfolio market) =
      some (Py.roundTo 2 (engine.referenceSize decision portfolio)) := by
  rcases check_spec portfolio market trade with ⟨refused, -⟩ | ⟨-, allowed, final⟩
  · exact absurd approves refused
  · rw [approval, if_pos allowed, final]

theorem approval_of_not_approves (trade : decision.isTrade)
    (refused : ¬engine.Approves decision portfolio market) :
    approval (engine.check decision portfolio market) = none := by
  rcases check_spec portfolio market trade with ⟨-, reason, rung, verdict⟩ | ⟨approves, -⟩
  · rw [verdict, approval, if_neg (not_allowed_rejected reason rung)]
  · exact absurd approves refused

theorem approval_eq_some_iff (trade : decision.isTrade) {approved : ℚ} :
    approval (engine.check decision portfolio market) = some approved ↔
      engine.Approves decision portfolio market ∧
        approved = Py.roundTo 2 (engine.referenceSize decision portfolio) := by
  by_cases approves : engine.Approves decision portfolio market
  · rw [approval_of_approves trade approves, Option.some.injEq, and_iff_right approves]
    exact eq_comm
  · rw [approval_of_not_approves trade approves]
    simp [approves]

theorem referenceSize_eq_min : engine.referenceSize decision portfolio =
    min decision.amountUsd (engine.limit decision portfolio) :=
  referenceSize_resized decision.amountUsd

/-- Within the rate limit, a smaller trade is approved as well, at no larger size. -/
theorem approval_mono (within : engine.WithinRateLimit portfolio) (trade : decision.isTrade)
    {smaller approved : ℚ} (positive : 0 < smaller) (le : smaller ≤ decision.amountUsd)
    (allowed : approval (engine.check decision portfolio market) = some approved) :
    ∃ less, approval (engine.check (decision.resized smaller) portfolio market) = some less ∧
      less ≤ approved := by
  rcases (approval_eq_some_iff trade).1 allowed with ⟨approves, rfl⟩
  have trade' : (decision.resized smaller).isTrade := ⟨trade.1, positive⟩
  refine ⟨_, approval_of_approves trade' ((approves_resized_iff approves).2 (.inr within)), ?_⟩
  rw [referenceSize_resized, referenceSize_eq_min]
  exact Py.roundTo_mono 2 (min_le_min_right _ le)

/-- The size that a trade was approved at is a fixed point. -/
theorem roundTo_referenceSize_resized {approved : ℚ}
    (size : approved = Py.roundTo 2 (engine.referenceSize decision portfolio)) :
    Py.roundTo 2 (engine.referenceSize (decision.resized approved) portfolio) = approved := by
  rw [referenceSize_resized, size, referenceSize_eq_min]
  exact round_cut_again (Py.roundTo_mono 2) (Py.roundTo_roundTo 2) _ _

/-- **Resubmitting an approved trade.** The approved size is at most the proposed one in cents. A
trade that comes back at it is approved at the same size when the rate limit has room, or when
rounding has carried it over the exposure room, and is rejected otherwise. Within the rate limit a
smaller trade is approved at no larger size. -/
theorem resubmitted_iff (cfg : Config) (decision : Decision) (portfolio : PortfolioView)
    (market : MarketView) (trade : decision.isTrade) (approved : ℚ)
    (allowed : approval ((ofConfig cfg).check decision portfolio market) = some approved) :
    approved ≤ Py.roundTo 2 decision.amountUsd ∧
      (0 < approved →
        (approval ((ofConfig cfg).check (decision.resized approved) portfolio market) =
            some approved ↔ (ofConfig cfg).WithinRateLimit portfolio ∨
              (ofConfig cfg).ExceedsRoom (decision.resized approved) portfolio) ∧
        (approval ((ofConfig cfg).check (decision.resized approved) portfolio market) = none ↔
          ¬((ofConfig cfg).WithinRateLimit portfolio ∨
            (ofConfig cfg).ExceedsRoom (decision.resized approved) portfolio))) ∧
      ((ofConfig cfg).WithinRateLimit portfolio → ∀ smaller, 0 < smaller →
        smaller ≤ decision.amountUsd → ∃ less,
          approval ((ofConfig cfg).check (decision.resized smaller) portfolio market) =
            some less ∧ less ≤ approved) := by
  rcases (approval_eq_some_iff trade).1 allowed with ⟨approves, size⟩
  refine ⟨?_, ?_, fun within smaller positive le => approval_mono within trade positive le allowed⟩
  · rw [size, referenceSize_eq_min]
    exact Py.roundTo_mono 2 (min_le_left _ _)
  · intro positive
    have trade' : (decision.resized approved).isTrade := ⟨trade.1, positive⟩
    have again : (ofConfig cfg).Approves (decision.resized approved) portfolio market ↔
        (ofConfig cfg).WithinRateLimit portfolio ∨
          (ofConfig cfg).ExceedsRoom (decision.resized approved) portfolio := by
      rw [approves_resized_iff approves, or_comm]
    constructor
    · rw [approval_eq_some_iff trade', roundTo_referenceSize_resized size, again]
      exact and_iff_left rfl
    · rw [← again]
      constructor
      · intro rejected accepts
        rw [approval_of_approves trade' accepts] at rejected
        cases rejected
      · exact approval_of_not_approves trade'

/-- A buy that is clamped to its room although the rate limit is used up is rejected when it comes
back at the clamped size. -/
theorem resubmitted_iff_overRoomBuy :
    approval ((ofConfig injectiveConfig).check overRoomBuy exhaustedPortfolio ⟨0, "risk_on"⟩) =
        some 2 ∧
      approval ((ofConfig injectiveConfig).check (overRoomBuy.resized 2) exhaustedPortfolio
        ⟨0, "risk_on"⟩) = none := by
  have allowed : approval ((ofConfig injectiveConfig).check overRoomBuy exhaustedPortfolio
      ⟨0, "risk_on"⟩) = some 2 := by
    decide +kernel
  have trade : overRoomBuy.isTrade := by decide +kernel
  refine ⟨allowed, ((resubmitted_iff injectiveConfig overRoomBuy exhaustedPortfolio ⟨0, "risk_on"⟩
    trade 2 allowed).2.1 (by norm_num)).2.2 ?_⟩
  rintro (within | exceeds)
  · exact absurd within.1 (by decide +kernel)
  · exact absurd exceeds.exceeds (by decide +kernel)

end PolicyEngine

end SumplusTrader
