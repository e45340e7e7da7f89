import SumplusTrader.Core.Direction
import SumplusTrader.Strategy.EntrySoundness

/-!
# The next buy

This file gives the buy that the strategy proposes on the two rungs that allow one, `none` and
`halve_size`, without running the strategy: the first ranked token that is not held and sizes to
a dollar, or else the micro-rebalance up. The rung only enters as the flag that halves the share
of an entry, so the buys of two drawdowns can be compared (`nextBuy_eq`).
-/

namespace SumplusTrader

/-- The intent takes on risk: it enters a token, or rebalances into one that is not the quote. -/
def Intent.TakesRisk (intent : Intent) (quote : String) : Prop :=
  intent.action = .enter ∨ intent.action = .rebalance ∧ intent.toToken ≠ quote

instance (intent : Intent) (quote : String) : Decidable (intent.TakesRisk quote) :=
  inferInstanceAs (Decidable (_ ∨ _))

/-- The decision without the words and the confidence of the strategy. -/
def Decision.plain (decision : Decision) : Decision :=
  { decision with
    confidence := 0
    rationale := "" }

namespace Survival

/-- The decision of the strategy when it takes on risk. -/
def riskTaken (views : List TokenView) (portfolio : PortfolioState) (cfg : Config) (nowTs : ℚ)
    (quote chain : String) : Option Decision :=
  match decide views portfolio cfg nowTs quote chain with
  | .error _ => none
  | .ok intent => if intent.TakesRisk quote then some (intentToDecision intent) else none

/-- Sizing a token does not divide by zero. -/
def Scales (cfg : Config) (view : TokenView) : Prop :=
  view.vol24hPct = none ∨ cfg.volEnterMaxPct ≠ 0

instance (cfg : Config) (view : TokenView) : Decidable (Scales cfg view) :=
  inferInstanceAs (Decidable (_ ∨ _))

/-- The size of an entry, on the rung that halves it or off it. -/
def entrySize (cfg : Config) (portfolio : PortfolioState) (halve : Bool) (view : TokenView) : ℚ :=
  let share := scaledShare cfg view.vol24hPct
  min (min ((if halve then share / 2 else share) * portfolio.navUsd) cfg.risk.maxSingleTradeUsd)
    (room cfg portfolio * portfolio.navUsd)

/-- The scan for entries ends at the token: it is not held, and its size reaches a dollar or
cannot be told. -/
def EndsScan (cfg : Config) (portfolio : PortfolioState) (halve : Bool)
    (entry : TokenView × Regime) : Prop :=
  portfolio.positions.get? (Py.upper entry.1.symbol) = none ∧
    (Scales cfg entry.1 → 1 ≤ entrySize cfg portfolio halve entry.1)

instance (cfg : Config) (portfolio : PortfolioState) (halve : Bool)
    (entry : TokenView × Regime) : Decidable (EndsScan cfg portfolio halve entry) :=
  inferInstanceAs (Decidable (_ ∧ _))

/-- Where the scan for entries ends. -/
def scanEnd (cfg : Config) (portfolio : PortfolioState) (halve : Bool)
    (ranked : List (TokenView × Regime)) : Option TokenView :=
  (ranked.find? fun entry => EndsScan cfg portfolio halve entry).map Prod.fst

/-- The micro-rebalance up, into a token that is not the quote. -/
def nextRebalance (views : List TokenView) (portfolio : PortfolioState) (cfg : Config)
    (quote chain : String) : Option Decision :=
  if cfg.risk.minTradeIntervalSeconds.value ≤ portfolio.secondsSinceLastTrade ∧
      portfolio.riskyExposurePct <
        cfg.minTrades.targetRiskyRatio - cfg.minTrades.rebalanceBand then
    ((rebalanceToken views cfg portfolio).filter fun tok => tok ≠ quote).map fun tok =>
      ⟨if isCash tok then .sell else .buy, chain, quote, tok,
        Py.roundTo 2 cfg.minTrades.microRebalanceUsd, 0, ""⟩
  else none

/-- The next buy, on the rung that halves entries or off it. -/
def nextBuy (views : List TokenView) (portfolio : PortfolioState) (cfg : Config) (nowTs : ℚ)
    (quote chain : String) (halve : Bool) : Option Decision :=
  if firstDue cfg (priceMap views) portfolio nowTs = none ∧ 1 / 100 < room cfg portfolio then
    match scanEnd cfg portfolio halve (rankEntries (entryViews views cfg) cfg.volEnterMaxPct) with
    | some view =>
        if Scales cfg view then
          some ⟨.buy, chain, quote, Py.upper view.symbol,
            Py.roundTo 2 (entrySize cfg portfolio halve view), 0, ""⟩
        else none
    | none => nextRebalance views portfolio cfg quote chain
  else none

variable {views : List TokenView} {portfolio : PortfolioState} {cfg : Config} {nowTs : ℚ}
  {quote chain : String} {halve : Bool}

theorem volScaledSize_of_not_scales {view : TokenView} (unscaled : ¬Scales cfg view) (navUsd : ℚ)
    (halve : Bool) : volScaledSize navUsd view.vol24hPct cfg halve = .error .zeroDivision := by
  cases sized : volScaledSize navUsd view.vol24hPct cfg halve with
  | ok size => exact absurd (scaled_of_volScaledSize sized) unscaled
  | error e =>
      unfold volScaledSize at sized
      cases known : view.vol24hPct with
      | none => exact absurd (Or.inl known) unscaled
      | some vol =>
          have ceiling : cfg.volEnterMaxPct = 0 := by
            by_contra nonzero
            exact unscaled (.inr nonzero)
          simp only [known, ceiling, if_true, bind, Except.bind] at sized
          exact sized.symm

/-- What the scan comes to where it ends. -/
def entered (cfg : Config) (portfolio : PortfolioState) (halve : Bool) (quote chain : String)
    (entry : TokenView × Regime) : Except PyError (Option Intent) :=
  if Scales cfg entry.1 then
    .ok (some ⟨.enter, chain, quote, Py.upper entry.1.symbol,
      Py.roundTo 2 (entrySize cfg portfolio halve entry.1), 0.7,
      "enter " ++ Py.upper entry.1.symbol ++ ": " ++ entry.2.reason, ""⟩)
  else .error .zeroDivision

/-- The scan for entries as a search. -/
theorem firstEntry_eq_find (quote chain : String) (ranked : List (TokenView × Regime))
    (rung : Decidable.decide (ladderRung portfolio.drawdownPct cfg = "halve_size") = halve) :
    firstEntry cfg portfolio quote chain ranked =
      ((ranked.find? fun entry => EndsScan cfg portfolio halve entry).map
        (entered cfg portfolio halve quote chain)).getD (.ok none) := by
  induction ranked with
  | nil => rfl
  | cons entry ranked ih =>
      rcases entry with ⟨view, regime⟩
      rw [firstEntry, List.find?_cons]
      dsimp only
      rw [rung]
      by_cases held : (portfolio.positions.get? (Py.upper view.symbol)).isSome = true
      · have passes : ¬EndsScan cfg portfolio halve (view, regime) := by
          intro ends
          rw [ends.1] at held
          cases held
        rw [if_pos held, decide_eq_false passes]
        exact ih
      · have free : portfolio.positions.get? (Py.upper view.symbol) = none := by simpa using held
        rw [if_neg held]
        by_cases scales : Scales cfg view
        · rw [volScaledSize_eq scales]
          by_cases large : 1 ≤ entrySize cfg portfolio halve view
          · have ends : EndsScan cfg portfolio halve (view, regime) := ⟨free, fun _ => large⟩
            rw [decide_eq_true ends]
            simp only [bind, Except.bind, Option.map_some, Option.getD_some, entered, if_pos scales]
            exact if_pos large
          · have passes : ¬EndsScan cfg portfolio halve (view, regime) :=
              fun ends => large (ends.2 scales)
            rw [decide_eq_false passes]
            simp only [bind, Except.bind]
            exact (if_neg large).trans ih
        · have ends : EndsScan cfg portfolio halve (view, regime) :=
            ⟨free, fun scales' => absurd scales' scales⟩
          rw [volScaledSize_of_not_scales scales, decide_eq_true ends]
          simp only [bind, Except.bind, Option.map_some, Option.getD_some, entered, if_neg scales]

/-- The decision of an intent when it takes on risk, without the words. -/
def plainRisk (quote : String) (intent : Intent) : Option Decision :=
  (if intent.TakesRisk quote then some (intentToDecision intent) else none).map Decision.plain

theorem plainRisk_hold (views : List TokenView) (cfg : Config) (portfolio : PortfolioState)
    (quote chain : String) : plainRisk quote (hold views cfg portfolio quote chain) = none := by
  simp [plainRisk, Intent.TakesRisk, hold]

/-- A rebalance down takes on no risk. -/
theorem plainRisk_down (chain sym quote rationale : String) (amountUsd confidence : ℚ) :
    plainRisk quote ⟨.rebalance, chain, sym, quote, amountUsd, confidence, rationale, ""⟩ =
      none := by
  simp [plainRisk, Intent.TakesRisk]

theorem plainRisk_up (chain tok quote rationale : String) (amountUsd confidence : ℚ) :
    plainRisk quote ⟨.rebalance, chain, quote, tok, amountUsd, confidence, rationale, ""⟩ =
      if tok ≠ quote then
        some ⟨if isCash tok then .sell else .buy, chain, quote, tok, amountUsd, 0, ""⟩
      else none := by
  by_cases same : tok = quote
  · simp [plainRisk, Intent.TakesRisk, same]
  · simp [plainRisk, Intent.TakesRisk, same, intentToDecision, intentSide, Decision.plain]

theorem plainRisk_rebalance (unlocked : ladderRung portfolio.drawdownPct cfg ≠ "stablecoin_mode") :
    plainRisk quote ((rebalance views cfg portfolio quote chain).getD
        (hold views cfg portfolio quote chain)) =
      if canTakeRisk cfg portfolio then nextRebalance views portfolio cfg quote chain else none := by
  simp only [rebalance, nextRebalance]
  by_cases interval : cfg.risk.minTradeIntervalSeconds.value ≤ portfolio.secondsSinceLastTrade
  · have ready : canRebalance cfg portfolio := ⟨interval, unlocked⟩
    simp only [ready, not_true_eq_false, if_false, interval, true_and]
    by_cases up : portfolio.riskyExposurePct <
        cfg.minTrades.targetRiskyRatio - cfg.minTrades.rebalanceBand ∧ canTakeRisk cfg portfolio
    · rw [if_pos up, if_pos up.2, if_pos up.1]
      cases rebalanceToken views cfg portfolio with
      | none => exact plainRisk_hold _ _ _ _ _
      | some tok =>
          rw [Option.map_some, Option.getD_some, plainRisk_up, Option.filter_some]
          by_cases same : tok = quote
          · simp [same]
          · simp [same]
    · have notNext : (if canTakeRisk cfg portfolio then
          if portfolio.riskyExposurePct <
              cfg.minTrades.targetRiskyRatio - cfg.minTrades.rebalanceBand then
            ((rebalanceToken views cfg portfolio).filter fun tok => tok ≠ quote).map fun tok =>
              (⟨if isCash tok then .sell else .buy, chain, quote, tok,
                Py.roundTo 2 cfg.minTrades.microRebalanceUsd, 0, ""⟩ : Decision)
          else none
          else none) = none := by
        split_ifs with permitted below
        · exact absurd ⟨below, permitted⟩ up
        · rfl
        · rfl
      rw [notNext, if_neg up]
      split_ifs
      · cases largestHolding (priceMap views) portfolio with
        | none => exact plainRisk_hold _ _ _ _ _
        | some sym => exact plainRisk_down _ _ _ _ _ _
      · exact plainRisk_hold _ _ _ _ _
  · have waits : ¬canRebalance cfg portfolio := fun ready => interval ready.1
    rw [if_pos waits]
    simp only [interval, false_and, if_false, ite_self]
    exact plainRisk_hold _ _ _ _ _

/-- The amount of the next buy is in cents. -/
theorem roundTo_amountUsd_of_nextBuy {buy : Decision}
    (next : nextBuy views portfolio cfg nowTs quote chain halve = some buy) :
    Py.roundTo 2 buy.amountUsd = buy.amountUsd := by
  simp only [nextBuy, nextRebalance] at next
  split at next
  · split at next
    · split at next
      · rw [← Option.some.inj next]
        exact Py.roundTo_roundTo 2 _
      · cases next
    · split at next
      · rcases Option.map_eq_some_iff.1 next with ⟨tok, -, rfl⟩
        exact Py.roundTo_roundTo 2 _
      · cases next
  · cases next

theorem riskTaken_eq_plainRisk {intent : Intent}
    (decided : decide views portfolio cfg nowTs quote chain = .ok intent) :
    (riskTaken views portfolio cfg nowTs quote chain).map Decision.plain =
      plainRisk quote intent := by
  rw [riskTaken, decided]
  rfl

theorem plainRisk_of_firstDue {entry : String × Position}
    (first : firstDue cfg (priceMap views) portfolio nowTs = some entry) :
    (riskTaken views portfolio cfg nowTs quote chain).map Decision.plain = none := by
  rcases firstExit_of_firstDue quote chain first with ⟨reason, scan⟩
  have decided : decide views portfolio cfg nowTs quote chain = .ok ⟨.exit, chain,
      Py.upper entry.1, quote, Py.roundTo 2 (viewValue (priceMap views) entry), 0.9, reason, ""⟩ := by
    simp only [decide, scan]
  rw [riskTaken_eq_plainRisk decided]
  simp [plainRisk, Intent.TakesRisk]

/-- **The next buy.** On the rungs that allow one, the buy of the strategy is the next buy. -/
theorem nextBuy_eq (views : List TokenView) (nowTs : ℚ) (quote chain : String)
    (calm : ladderRung portfolio.drawdownPct cfg = "none" ∨
      ladderRung portfolio.drawdownPct cfg = "halve_size")
    (rung : Decidable.decide (ladderRung portfolio.drawdownPct cfg = "halve_size") = halve) :
    (riskTaken views portfolio cfg nowTs quote chain).map Decision.plain =
      nextBuy views portfolio cfg nowTs quote chain halve := by
  have unlocked : ladderRung portfolio.drawdownPct cfg ≠ "stablecoin_mode" := by
    rcases calm with none | halved
    · rw [none]
      exact by simp
    · rw [halved]
      exact by simp
  cases first : firstDue cfg (priceMap views) portfolio nowTs with
  | some entry =>
      rw [plainRisk_of_firstDue first, nextBuy, if_neg (by simp [first])]
  | none =>
      have noExit := (firstExit_eq_none_iff quote chain).2 first
      by_cases space : 1 / 100 < room cfg portfolio
      · have permitted : canTakeRisk cfg portfolio := ⟨calm, space⟩
        have scan := firstEntry_eq_find quote chain
          (rankEntries (entryViews views cfg) cfg.volEnterMaxPct) rung
        rw [nextBuy, if_pos ⟨first, space⟩, scanEnd]
        cases found : (rankEntries (entryViews views cfg) cfg.volEnterMaxPct).find?
            fun entry => EndsScan cfg portfolio halve entry with
        | none =>
            rw [found, Option.map_none, Option.getD_none] at scan
            rw [riskTaken_eq_plainRisk (decide_of_noEntry noExit fun _ => scan),
              plainRisk_rebalance unlocked, if_pos permitted]
            rfl
        | some entry =>
            rw [found, Option.map_some, Option.getD_some, entered] at scan
            rw [Option.map_some]
            dsimp only
            by_cases scales : Scales cfg entry.1
            · rw [if_pos scales] at scan ⊢
              have decided : decide views portfolio cfg nowTs quote chain = .ok ⟨.enter, chain,
                  quote, Py.upper entry.1.symbol,
                  Py.roundTo 2 (entrySize cfg portfolio halve entry.1), 0.7,
                  "enter " ++ Py.upper entry.1.symbol ++ ": " ++ entry.2.reason, ""⟩ := by
                simp only [decide, noExit, if_pos permitted, scan]
                rfl
              rw [riskTaken_eq_plainRisk decided]
              simp [plainRisk, Intent.TakesRisk, intentToDecision, intentSide, Decision.plain]
            · rw [if_neg scales] at scan ⊢
              simp only [riskTaken, decide, noExit, if_pos permitted, scan]
              rfl
      · have blocked : ¬canTakeRisk cfg portfolio := fun permitted => space permitted.2
        have decided := decide_of_noEntry noExit fun permitted => absurd permitted blocked
        rw [riskTaken_eq_plainRisk decided, plainRisk_rebalance unlocked, if_neg blocked, nextBuy,
          if_neg fun both => space both.2]

end Survival

end SumplusTrader
