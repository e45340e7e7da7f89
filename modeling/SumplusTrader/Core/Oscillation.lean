import SumplusTrader.Core.HalvedRisk

/-!
# Rebalancing back and forth

This file follows a micro-rebalance through the policy engine and the booking into the next call
of the strategy, at the same prices. The order has a fixed size in dollars, and the band around
the target is a share of the net asset value, so on a small book one order can carry the exposure
across the whole band, and the next one carries it back.

`no_oscillation` shows that the next call does not reverse an order that fits into the band: what
it moves, against the net asset value that it is decided on, does not reach past the far edge.
-/

namespace SumplusTrader

/-- The second intent rebalances against the first one: out of the quote token after a rebalance
into it, or into it after a rebalance out of it. -/
def Intent.Reverses (second first : Intent) (quote : String) : Prop :=
  second.action = .rebalance ∧
    (first.toToken ≠ quote ∧ second.fromToken ≠ quote ∨
      first.fromToken ≠ quote ∧ second.toToken ≠ quote)

/-- What a fill moves into the tokens of the book. -/
def movedUsd (state : State) (decision : Decision) (amountUsd : ℚ) (price : Dict String ℚ) : ℚ :=
  match decision.side with
  | .buy => amountUsd
  | .sell =>
      let sym := Py.upper decision.fromToken
      let px := priceOrZero price sym
      match state.positions.get? sym with
      | none => 0
      | some old => -((min old.qty (amountUsd / px) + old.dust amountUsd px) * px)
  | .hold => 0

/-- The dust that a fill drops. -/
def droppedUsd (state : State) (decision : Decision) (amountUsd : ℚ) (price : Dict String ℚ) : ℚ :=
  match decision.side with
  | .sell =>
      let sym := Py.upper decision.fromToken
      let px := priceOrZero price sym
      match state.positions.get? sym with
      | none => 0
      | some old => old.dust amountUsd px * px
  | _ => 0

section Booking

variable {state : State} {decision : Decision} {amountUsd nowTs : ℚ} {price : Dict String ℚ}

/-- What a fill that changes the book does to a valuation that agrees with the prices, and to the
cash. -/
theorem total_applyFill
    (changed : (applyFill state decision amountUsd price nowTs).positions ≠ state.positions)
    (value : String → HeldPosition → ℚ)
    (priced : ∀ token pos, 0 < priceOrZero price (Py.upper token) →
      value (Py.upper token) pos = pos.qty * priceOrZero price (Py.upper token)) :
    (applyFill state decision amountUsd price nowTs).positions.total value =
        state.positions.total value + movedUsd state decision amountUsd price ∧
      (applyFill state decision amountUsd price nowTs).stable = state.stable -
        movedUsd state decision amountUsd price - droppedUsd state decision amountUsd price := by
  unfold applyFill at changed ⊢
  unfold movedUsd droppedUsd
  cases side : decision.side with
  | buy =>
      simp only [side] at changed ⊢
      by_cases bought : 0 < priceOrZero price (Py.upper decision.toToken) ∧
          amountUsd ≤ state.stable + 1 / 1000000000
      · refine ⟨total_applyBuy state value (fun pos => priced _ pos bought.1) nowTs bought, ?_⟩
        rw [applyBuy, if_pos bought, sub_zero]
        rfl
      · rw [applyBuy, if_neg bought] at changed
        exact absurd rfl changed
  | sell =>
      simp only [side] at changed ⊢
      cases found : state.positions.get? (Py.upper decision.fromToken) with
      | none =>
          simp only [applySell, found] at changed
          exact absurd rfl changed
      | some old =>
          by_cases quoted : 0 < priceOrZero price (Py.upper decision.fromToken)
          · dsimp only
            rw [total_applySell state value (fun pos => priced _ pos quoted) amountUsd found quoted]
            refine ⟨sub_eq_add_neg _ _, ?_⟩
            simp only [applySell, found, if_pos quoted, State.stable, Option.getD_some]
            ring
          · simp only [applySell, found, if_neg quoted] at changed
            exact absurd rfl changed
  | hold =>
      simp only [side] at changed
      exact absurd rfl changed

theorem riskyUsd_applyFill
    (changed : (applyFill state decision amountUsd price nowTs).positions ≠ state.positions) :
    riskyUsd (applyFill state decision amountUsd price nowTs) price =
      riskyUsd state price + movedUsd state decision amountUsd price := by
  refine (total_applyFill changed (fun sym pos =>
    pos.qty * (price.get? (Py.upper sym)).getD pos.entryPrice) ?_).1
  intro token pos quoted
  rw [Py.upper_upper, get?_of_priceOrZero_ne quoted.ne']
  rfl

/-- Only the dust is lost. -/
theorem markNav_applyFill
    (changed : (applyFill state decision amountUsd price nowTs).positions ≠ state.positions) :
    (markNav (applyFill state decision amountUsd price nowTs) price).1 =
      (markNav state price).1 - droppedUsd state decision amountUsd price := by
  have booked := total_applyFill changed (fun sym pos =>
    pos.qty * markPrice price sym pos.entryPrice) (by
      intro token pos quoted
      have shown : price.get? (Py.upper (Py.upper token)) =
          some (priceOrZero price (Py.upper token)) := by
        rw [Py.upper_upper, get?_of_priceOrZero_ne quoted.ne']
      rw [markPrice_of_quoted shown quoted.ne'])
  simp only [markNav, markedUsd, booked]
  ring

end Booking

namespace Survival

variable {views : List TokenView} {portfolio : PortfolioState} {cfg : Config} {nowTs : ℚ}
  {quote chain : String} {intent : Intent}

/-- Only above the band does the strategy rebalance out of another token than the quote. -/
theorem aboveBand_of_decide (decided : decide views portfolio cfg nowTs quote chain = .ok intent)
    (rebalances : intent.action = .rebalance) (apart : intent.fromToken ≠ quote) :
    cfg.minTrades.targetRiskyRatio + cfg.minTrades.rebalanceBand < portfolio.riskyExposurePct := by
  cases decided_of_decide decided with
  | exit => cases rebalances
  | enter => cases rebalances
  | hold => cases rebalances
  | rebalanceUp => exact absurd rfl apart
  | rebalanceDown _ _ _ _ above => exact above

/-- Only below the band does the strategy rebalance into another token than the quote. -/
theorem belowBand_of_decide (decided : decide views portfolio cfg nowTs quote chain = .ok intent)
    (rebalances : intent.action = .rebalance) (apart : intent.toToken ≠ quote) :
    portfolio.riskyExposurePct < cfg.minTrades.targetRiskyRatio - cfg.minTrades.rebalanceBand := by
  cases decided_of_decide decided with
  | exit => cases rebalances
  | enter => cases rebalances
  | hold => cases rebalances
  | rebalanceUp _ _ _ _ below => exact below
  | rebalanceDown => exact absurd rfl apart

end Survival

namespace Core

open PolicyEngine

/-- The book after the trade of a judgement is booked and the net asset value is marked. -/
def bookAfter (state : State) (j : Judgement) : State :=
  (markNav (settle state j j.verdict.finalAmountUsd true) (priceMap j.views)).2

/-- The amount of an approved judgement is its reference size in cents. -/
theorem finalAmountUsd_of_approved {cfg : Config} {state : State} {views : List TokenView}
    {dataTs nowTs wall : ℚ} {intent : Intent}
    (approved : (judgement cfg state views dataTs nowTs wall intent).approved) :
    (judgement cfg state views dataTs nowTs wall intent).verdict.finalAmountUsd =
      Py.roundTo 2 ((ofConfig cfg).referenceSize (intentToDecision intent)
        (portfolioView (buildPortfolioState state views wall) state)) := by
  have trade : (intentToDecision intent).isTrade := approved.2
  rcases check_spec (portfolioView (buildPortfolioState state views wall) state)
    (marketView cfg views dataTs nowTs) trade with ⟨-, reason, rung, verdict⟩ | ⟨-, -, amount⟩
  · have refused : ((ofConfig cfg).check (intentToDecision intent)
        (portfolioView (buildPortfolioState state views wall) state)
        (marketView cfg views dataTs nowTs)).allowed := approved.1
    rw [verdict] at refused
    exact absurd refused (not_allowed_rejected reason rung)
  · exact amount

section Order

variable (cfg : Config) (views : List TokenView) (state : State) (wall : ℚ) (intent : Intent)

/-- The smallest of the amount, the cap and the room, in cents. -/
def orderUsd : ℚ :=
  Py.roundTo 2 ((ofConfig cfg).referenceSize (intentToDecision intent)
    (portfolioView (buildPortfolioState state views wall) state))

/-- What the order moves into the tokens. -/
def orderMoves : ℚ :=
  movedUsd state (intentToDecision intent) (orderUsd cfg views state wall intent) (priceMap views)

/-- The dust that the order drops. -/
def orderDrops : ℚ :=
  droppedUsd state (intentToDecision intent) (orderUsd cfg views state wall intent) (priceMap views)

/-- The order fits into the band: with what it moves, the risky value stays short of the edge on
the other side, which is a share of the net asset value that the order is decided on. -/
structure FitsBand (quote : String) : Prop where
  worth : 0 < state.navOrDefault - orderDrops cfg views state wall intent
  up : intent.toToken ≠ quote →
    riskyUsd state (priceMap views) + orderMoves cfg views state wall intent ≤
      (cfg.minTrades.targetRiskyRatio + cfg.minTrades.rebalanceBand) *
        (state.navOrDefault - orderDrops cfg views state wall intent)
  down : intent.fromToken ≠ quote →
    (cfg.minTrades.targetRiskyRatio - cfg.minTrades.rebalanceBand) *
        (state.navOrDefault - orderDrops cfg views state wall intent) ≤
      riskyUsd state (priceMap views) + orderMoves cfg views state wall intent

end Order

section Band

variable {cfg : Config} {views : List TokenView} {state : State} {wall : ℚ} {quote : String}
  {intent : Intent}

/-- The exposure that an approved order leaves behind. -/
theorem riskyExposurePct_bookAfter {dataTs nowTs : ℚ}
    (marked : state.navOrDefault = (markNav state (priceMap views)).1)
    (approved : (judgement cfg state views dataTs nowTs wall intent).approved)
    (booked : (settle state (judgement cfg state views dataTs nowTs wall intent)
      (judgement cfg state views dataTs nowTs wall intent).verdict.finalAmountUsd true).positions ≠
        state.positions)
    (worth : 0 < state.navOrDefault - orderDrops cfg views state wall intent) (later : ℚ) :
    (buildPortfolioState (bookAfter state (judgement cfg state views dataTs nowTs wall intent))
        views later).riskyExposurePct =
      (riskyUsd state (priceMap views) + orderMoves cfg views state wall intent) /
        (state.navOrDefault - orderDrops cfg views state wall intent) := by
  have amount : (judgement cfg state views dataTs nowTs wall intent).verdict.finalAmountUsd =
      orderUsd cfg views state wall intent := finalAmountUsd_of_approved approved
  have risky : riskyUsd (bookAfter state (judgement cfg state views dataTs nowTs wall intent))
      (priceMap views) =
        riskyUsd state (priceMap views) + orderMoves cfg views state wall intent := by
    have filled := riskyUsd_applyFill booked
    rw [amount] at filled
    rw [bookAfter, amount]
    exact filled
  have nav : (bookAfter state
      (judgement cfg state views dataTs nowTs wall intent)).navOrDefault =
        state.navOrDefault - orderDrops cfg views state wall intent := by
    have filled := markNav_applyFill booked
    rw [amount] at filled
    rw [bookAfter, amount, marked]
    exact filled
  simp only [buildPortfolioState, risky, nav, if_pos worth]

/-- **A rebalance that fits into the band is not reversed by the next call**, whenever that
comes. -/
theorem no_oscillation (cfg : Config) (views : List TokenView) (state : State)
    (dataTs nowTs wall : ℚ) (quote chain : String) (intent : Intent)
    (marked : state.navOrDefault = (markNav state (priceMap views)).1)
    (approved : (judgement cfg state views dataTs nowTs wall intent).approved)
    (booked : (settle state (judgement cfg state views dataTs nowTs wall intent)
      (judgement cfg state views dataTs nowTs wall intent).verdict.finalAmountUsd true).positions ≠
        state.positions)
    (fits : FitsBand cfg views state wall intent quote) (later wallLater : ℚ) {second : Intent}
    (decided : Survival.decide views (buildPortfolioState
      (bookAfter state (judgement cfg state views dataTs nowTs wall intent)) views wallLater) cfg
      later quote chain = .ok second) : ¬second.Reverses intent quote := by
  have exposure := riskyExposurePct_bookAfter marked approved booked fits.worth wallLater
  rintro ⟨rebalances, ⟨toToken, fromToken⟩ | ⟨fromToken, toToken⟩⟩
  · -- The second order sells, so the first one has left the exposure above the band.
    have above := Survival.aboveBand_of_decide decided rebalances fromToken
    rw [exposure, lt_div_iff₀ fits.worth] at above
    exact absurd (fits.up toToken) (not_le.2 above)
  · have below := Survival.belowBand_of_decide decided rebalances toToken
    rw [exposure, div_lt_iff₀ fits.worth] at below
    exact absurd (fits.down fromToken) (not_le.2 below)

/-- A rebalance up out of the quote token fits when the order is within the distance to the far
edge. -/
theorem fitsBand_of_buy (nav : 0 < state.navOrDefault)
    (buys : (intentToDecision intent).side = .buy) (fromQuote : intent.fromToken = quote)
    (short : (buildPortfolioState state views wall).riskyExposurePct +
        orderUsd cfg views state wall intent / state.navOrDefault ≤
      cfg.minTrades.targetRiskyRatio + cfg.minTrades.rebalanceBand) :
    FitsBand cfg views state wall intent quote := by
  have exposure : (buildPortfolioState state views wall).riskyExposurePct =
      riskyUsd state (priceMap views) / state.navOrDefault := if_pos nav
  rw [exposure, ← add_div, div_le_iff₀ nav] at short
  constructor
  · simpa only [orderDrops, droppedUsd, buys, sub_zero] using nav
  · intro _
    simpa only [orderMoves, movedUsd, orderDrops, droppedUsd, buys, sub_zero] using short
  · exact fun apart => absurd fromQuote apart

/-- A rebalance down into the quote token fits when the order is within the distance to the far
edge, and more of the position than dust is left. -/
theorem fitsBand_of_sale {old : HeldPosition} (nav : 0 < state.navOrDefault)
    (sells : (intentToDecision intent).side = .sell) (toQuote : intent.toToken = quote)
    (found : state.positions.get? (Py.upper intent.fromToken) = some old)
    (quoted : 0 < priceOrZero (priceMap views) (Py.upper intent.fromToken))
    (left : 1 / 1000000000 < old.qty - orderUsd cfg views state wall intent /
      priceOrZero (priceMap views) (Py.upper intent.fromToken))
    (short : cfg.minTrades.targetRiskyRatio - cfg.minTrades.rebalanceBand ≤
      (buildPortfolioState state views wall).riskyExposurePct -
        orderUsd cfg views state wall intent / state.navOrDefault) :
    FitsBand cfg views state wall intent quote := by
  have part : orderUsd cfg views state wall intent /
      priceOrZero (priceMap views) (Py.upper intent.fromToken) ≤ old.qty := by
    linarith only [left]
  have noDust : old.dust (orderUsd cfg views state wall intent)
      (priceOrZero (priceMap views) (Py.upper intent.fromToken)) = 0 := by
    refine if_neg (not_le.2 ?_)
    rw [HeldPosition.left, min_eq_right part]
    exact left
  have moved : orderMoves cfg views state wall intent = -orderUsd cfg views state wall intent := by
    simp only [orderMoves, movedUsd, sells]
    simp only [intentToDecision, found, noDust, add_zero, min_eq_right part,
      div_mul_cancel₀ _ quoted.ne']
  have dropped : orderDrops cfg views state wall intent = 0 := by
    simp only [orderDrops, droppedUsd, sells]
    simp only [intentToDecision, found, noDust, zero_mul]
  have exposure : (buildPortfolioState state views wall).riskyExposurePct =
      riskyUsd state (priceMap views) / state.navOrDefault := if_pos nav
  rw [exposure, ← sub_div, le_div_iff₀ nav] at short
  constructor
  · rwa [dropped, sub_zero]
  · exact fun apart => absurd toQuote apart
  · intro _
    rwa [moved, dropped, sub_zero, ← sub_eq_add_neg]

end Band

/-- A book of cash alone, freshly marked. -/
def markedCash (usd : ℚ) : State :=
  (markNav (hundredBook Dict.empty usd) (priceMap Survival.flatViews)).2

/-- The rebalance up of the shipped profile. -/
def upIntent : Intent :=
  ⟨.rebalance, "injective", "USDT", "INJ", 1.2, 0.4,
    "micro-rebalance up toward 10% risky (INJ)", ""⟩

/-- Its judgement on a book of cash. -/
def upJudgement (usd : ℚ) : Judgement :=
  judgement injectiveConfig (markedCash usd) Survival.flatViews 1000 1000 1000 upIntent

theorem upJudgement_booked {usd : ℚ} (length : (settle (markedCash usd) (upJudgement usd)
    (upJudgement usd).verdict.finalAmountUsd true).positions.entries.length = 1) :
    (settle (markedCash usd) (upJudgement usd)
      (upJudgement usd).verdict.finalAmountUsd true).positions ≠ (markedCash usd).positions := by
  intro same
  have empty : (markedCash usd).positions.entries.length = 0 := rfl
  rw [same, empty] at length
  cases length

/-- On the shipped profile and a book of eight dollars, the rebalance up carries the exposure
from nothing to fifteen percent, past the edge at fourteen, and the next call carries it back. -/
theorem small_book_oscillates :
    Survival.decide Survival.flatViews
        (buildPortfolioState (markedCash 8) Survival.flatViews 1000) injectiveConfig 1000 "USDT"
        "injective" = .ok upIntent ∧
      upIntent.action = .rebalance ∧ (upJudgement 8).approved ∧
      (settle (markedCash 8) (upJudgement 8)
        (upJudgement 8).verdict.finalAmountUsd true).positions ≠ (markedCash 8).positions ∧
      injectiveConfig.risk.minTradeIntervalSeconds.value ≤
        (buildPortfolioState (bookAfter (markedCash 8) (upJudgement 8)) Survival.flatViews
          1900).secondsSinceLastTrade ∧
      ∃ second, Survival.decide Survival.flatViews
          (buildPortfolioState (bookAfter (markedCash 8) (upJudgement 8)) Survival.flatViews 1900)
          injectiveConfig 1900 "USDT" "injective" = .ok second ∧
        second.Reverses upIntent "USDT" := by
  refine ⟨by decide +kernel, rfl, by decide +kernel, ?_, by decide +kernel, ⟨.rebalance,
    "injective", "INJ", "USDT", 1.2, 0.4, "micro-rebalance down toward 10% risky (INJ)", ""⟩,
    by decide +kernel, rfl, ?_⟩
  · exact upJudgement_booked (by decide +kernel)
  · exact .inl ⟨by decide, by decide⟩

/-- A book of a hundred dollars with a bit more in INJ than the band allows, freshly marked. -/
def markedToken : State :=
  (markNav (hundredBook smallBook 85) (priceMap Survival.flatViews)).2

/-- The rebalance down of the shipped profile. -/
def downIntent : Intent :=
  ⟨.rebalance, "injective", "INJ", "USDT", 1.2, 0.4,
    "micro-rebalance down toward 10% risky (INJ)", ""⟩

/-- Its judgement on the book with the token. -/
def downJudgement : Judgement :=
  judgement injectiveConfig markedToken Survival.flatViews 1000 1000 1000 downIntent

theorem downJudgement_booked : (settle markedToken downJudgement
    downJudgement.verdict.finalAmountUsd true).positions ≠ markedToken.positions := by
  intro same
  have sold : ((settle markedToken downJudgement
      downJudgement.verdict.finalAmountUsd true).positions.get? "INJ").map HeldPosition.qty =
    some (69 / 100) := by decide +kernel
  rw [same] at sold
  exact absurd sold (by decide +kernel)

theorem no_oscillation_bothWays :
    (Survival.decide Survival.flatViews (buildPortfolioState (markedCash 100) Survival.flatViews
        1000) injectiveConfig 1000 "USDT" "injective" = .ok upIntent ∧
      ∀ second, Survival.decide Survival.flatViews (buildPortfolioState
          (bookAfter (markedCash 100) (upJudgement 100)) Survival.flatViews 1900) injectiveConfig
          1900 "USDT" "injective" = .ok second → ¬second.Reverses upIntent "USDT") ∧
    (Survival.decide Survival.flatViews (buildPortfolioState markedToken Survival.flatViews 1000)
        injectiveConfig 1000 "USDT" "injective" = .ok downIntent ∧
      ∀ second, Survival.decide Survival.flatViews (buildPortfolioState
          (bookAfter markedToken downJudgement) Survival.flatViews 1900) injectiveConfig 1900 "USDT"
          "injective" = .ok second → ¬second.Reverses downIntent "USDT") := by
  refine ⟨⟨by decide +kernel, fun second decided => ?_⟩, by decide +kernel,
    fun second decided => ?_⟩
  · refine no_oscillation injectiveConfig Survival.flatViews (markedCash 100) 1000 1000 1000 "USDT"
      "injective" upIntent (by decide +kernel) (by decide +kernel) ?_ ?_ 1900 1900 decided
    · exact upJudgement_booked (by decide +kernel)
    · exact fitsBand_of_buy (by decide +kernel) (by decide +kernel) rfl (by decide +kernel)
  · refine no_oscillation injectiveConfig Survival.flatViews markedToken 1000 1000 1000 "USDT"
      "injective" downIntent (by decide +kernel) (by decide +kernel) downJudgement_booked ?_ 1900
      1900 decided
    have found : markedToken.positions.get? (Py.upper downIntent.fromToken) =
      some ⟨3 / 4, 20, 0⟩ := by decide +kernel
    exact fitsBand_of_sale (by decide +kernel) (by decide +kernel) rfl found (by decide +kernel)
      (by decide +kernel) (by decide +kernel)

end Core

end SumplusTrader
