import SumplusTrader.Strategy.Signals

/-!
# The survival strategy

This file models `agent/strategy/survival.py`. `decide` turns the views, the
portfolio and the configuration into exactly one intent, by priority: an exit of
the first position that meets an exit rule, an entry, a micro-rebalance toward
the target ratio, and otherwise a hold that names its reason.

Scaling a trade by volatility divides by the volatility ceiling, so a ceiling of
zero makes `decide` raise when it sizes a token with a known volatility.
-/

namespace SumplusTrader

structure Position where
  symbol : String
  qty : ℚ
  entryPrice : ℚ
  entryTs : ℚ
deriving DecidableEq

structure PortfolioState where
  navUsd : ℚ
  stableUsd : ℚ
  positions : Dict String Position
  drawdownPct : ℚ
  riskyExposurePct : ℚ
  tradesThisWeek : ℤ
  secondsSinceLastTrade : ℚ

inductive IntentAction where
  | enter
  | exit
  | rebalance
  | hold
deriving DecidableEq

structure Intent where
  action : IntentAction
  chain : String
  fromToken : String
  toToken : String
  amountUsd : ℚ
  confidence : ℚ
  rationale : String
  abstainReason : String
deriving DecidableEq

namespace Survival

def ladderRung (drawdownPct : ℚ) (cfg : Config) : String :=
  reachedRung (sortedLadder cfg.drawdownLadder) drawdownPct

def volScaledSize (nav : ℚ) (volPct : Option ℚ) (cfg : Config) (halve : Bool) :
    Except PyError ℚ := do
  let lo := cfg.risk.minSingleTradePct
  let hi := cfg.risk.maxSingleTradePct
  let vmax := cfg.volEnterMaxPct
  let frac ← match volPct with
    | none => .ok lo
    | some vol =>
        if vmax = 0 then .error .zeroDivision
        else .ok (lo + (hi - lo) * max 0 (min 1 ((vmax - vol) / vmax)))
  let frac := if halve then frac / 2 else frac
  return min (frac * nav) cfg.risk.maxSingleTradeUsd

def pnlPct (pos : Position) (px : ℚ) : ℚ :=
  if pos.entryPrice ≠ 0 then (px - pos.entryPrice) / pos.entryPrice * 100 else 0

def heldHours (pos : Position) (nowTs : ℚ) : ℚ := (nowTs - pos.entryTs) / 3600

/-- The exit rule that a position meets at a price, as the reason it gives. -/
def exitReason (cfg : Config) (drawdownPct nowTs : ℚ) (sym : String) (pos : Position) (px : ℚ) :
    Option String :=
  if ladderRung drawdownPct cfg = "stablecoin_mode" then
    some ("stablecoin mode (drawdown " ++ Py.fixedText 2 drawdownPct ++ "%), flatten " ++ sym)
  else if pnlPct pos px ≤ -cfg.risk.stopLossPct then
    some ("stop-loss " ++ sym ++ " " ++ Py.signedText 1 (pnlPct pos px) ++ "%")
  else if cfg.risk.takeProfitPct ≤ pnlPct pos px then
    some ("take-profit " ++ sym ++ " " ++ Py.signedText 1 (pnlPct pos px) ++ "%")
  else if cfg.risk.maxHoldHours ≤ heldHours pos nowTs then
    some ("time-stop " ++ sym ++ " held " ++ Py.fixedText 0 (heldHours pos nowTs) ++ "h")
  else none

/-- The exit of one position, when it is held, has a view, and meets a rule. -/
def exitOf (cfg : Config) (price : Dict String ℚ) (drawdownPct nowTs : ℚ)
    (quote chain : String) (entry : String × Position) : Option Intent :=
  let sym := Py.upper entry.1
  let pos := entry.2
  match price.get? sym with
  | none => none
  | some px =>
      if pos.qty ≤ 0 then none
      else (exitReason cfg drawdownPct nowTs sym pos px).map fun reason =>
        ⟨.exit, chain, sym, quote, Py.roundTo 2 (pos.qty * px), 0.9, reason, ""⟩

/-- The exit of the first position that has one. -/
def firstExit (cfg : Config) (price : Dict String ℚ) (portfolio : PortfolioState)
    (nowTs : ℚ) (quote chain : String) : Option Intent :=
  portfolio.positions.entries.findSome?
    (exitOf cfg price portfolio.drawdownPct nowTs quote chain)

def universeSet (cfg : Config) : List String := cfg.universeTokens.map Py.upper

def entryViews (views : List TokenView) (cfg : Config) : List TokenView :=
  views.filter fun view => Py.upper view.symbol ∈ universeSet cfg

def room (cfg : Config) (portfolio : PortfolioState) : ℚ :=
  cfg.risk.maxRiskyExposurePct - portfolio.riskyExposurePct

def canTakeRisk (cfg : Config) (portfolio : PortfolioState) : Prop :=
  (ladderRung portfolio.drawdownPct cfg = "none" ∨
    ladderRung portfolio.drawdownPct cfg = "halve_size") ∧ 1 / 100 < room cfg portfolio

instance (cfg : Config) (portfolio : PortfolioState) : Decidable (canTakeRisk cfg portfolio) :=
  inferInstanceAs (Decidable (_ ∧ _))

/-- The entry into the first ranked token that is not held and sizes to a dollar. -/
def firstEntry (cfg : Config) (portfolio : PortfolioState) (quote chain : String) :
    List (TokenView × Regime) → Except PyError (Option Intent)
  | [] => .ok none
  | (view, regime) :: ranked =>
      let sym := Py.upper view.symbol
      if (portfolio.positions.get? sym).isSome then
        firstEntry cfg portfolio quote chain ranked
      else do
        let halve := ladderRung portfolio.drawdownPct cfg = "halve_size"
        let size ← volScaledSize portfolio.navUsd view.vol24hPct cfg halve
        let size := min size (room cfg portfolio * portfolio.navUsd)
        if 1 ≤ size then
          return some ⟨.enter, chain, quote, sym, Py.roundTo 2 size, 0.7,
            "enter " ++ sym ++ ": " ++ regime.reason, ""⟩
        else firstEntry cfg portfolio quote chain ranked

def canRebalance (cfg : Config) (portfolio : PortfolioState) : Prop :=
  cfg.risk.minTradeIntervalSeconds.value ≤ portfolio.secondsSinceLastTrade ∧
    ladderRung portfolio.drawdownPct cfg ≠ "stablecoin_mode"

instance (cfg : Config) (portfolio : PortfolioState) : Decidable (canRebalance cfg portfolio) :=
  inferInstanceAs (Decidable (_ ∧ _))

/-- The tokens that are not held, the calmest first. -/
def calmViews (views : List TokenView) (cfg : Config) (portfolio : PortfolioState) :
    List TokenView :=
  ((entryViews views cfg).filter fun view =>
    (portfolio.positions.get? (Py.upper view.symbol)).isNone).insertionSort
      fun view other => view.vol24hPct.getD 1000000000 ≤ other.vol24hPct.getD 1000000000

/-- The token that is bought toward the target: the best ranked one, else the
calmest that is not held. -/
def rebalanceToken (views : List TokenView) (cfg : Config) (portfolio : PortfolioState) :
    Option String :=
  let named : Option TokenView → Option String := fun view =>
    (view.map fun view => Py.upper view.symbol).filter fun tok => tok ≠ ""
  (named ((rankEntries (entryViews views cfg) cfg.volEnterMaxPct).head?.map Prod.fst)).or
    (named (calmViews views cfg portfolio).head?)

/-- The held token of the largest value, as the views price it. -/
def largestHolding (price : Dict String ℚ) (portfolio : PortfolioState) : Option String :=
  (portfolio.positions.entries.argmax fun entry =>
    entry.2.qty * (price.get? (Py.upper entry.1)).getD 0).map fun entry => Py.upper entry.1

def targetText (cfg : Config) : String :=
  Py.fixedText 0 (cfg.minTrades.targetRiskyRatio * 100)

def rebalance (views : List TokenView) (cfg : Config) (portfolio : PortfolioState)
    (quote chain : String) : Option Intent :=
  let target := cfg.minTrades.targetRiskyRatio
  let band := cfg.minTrades.rebalanceBand
  let amount := Py.roundTo 2 cfg.minTrades.microRebalanceUsd
  if ¬canRebalance cfg portfolio then none
  else if portfolio.riskyExposurePct < target - band ∧ canTakeRisk cfg portfolio then
    (rebalanceToken views cfg portfolio).map fun tok =>
      ⟨.rebalance, chain, quote, tok, amount, 0.4,
        "micro-rebalance up toward " ++ targetText cfg ++ "% risky (" ++ tok ++ ")", ""⟩
  else if target + band < portfolio.riskyExposurePct then
    (largestHolding (priceMap views) portfolio).map fun sym =>
      ⟨.rebalance, chain, sym, quote, amount, 0.4,
        "micro-rebalance down toward " ++ targetText cfg ++ "% risky (" ++ sym ++ ")", ""⟩
  else none

def abstainReason (views : List TokenView) (cfg : Config) (portfolio : PortfolioState) : String :=
  let rung := ladderRung portfolio.drawdownPct cfg
  if rung = "stablecoin_mode" ∨ rung = "no_new_risk" then "drawdown_proximity"
  else if room cfg portfolio ≤ 1 / 100 then "exposure_full"
  else if rankEntries (entryViews views cfg) cfg.volEnterMaxPct = [] then "regime_conflict"
  else "rate_or_interval"

def hold (views : List TokenView) (cfg : Config) (portfolio : PortfolioState)
    (quote chain : String) : Intent :=
  ⟨.hold, chain, quote, quote, 0, 0.3, "no qualifying action",
    abstainReason views cfg portfolio⟩

def decide (views : List TokenView) (portfolio : PortfolioState) (cfg : Config) (nowTs : ℚ)
    (quote chain : String) : Except PyError Intent :=
  match firstExit cfg (priceMap views) portfolio nowTs quote chain with
  | some intent => .ok intent
  | none => do
      let entered ← if canTakeRisk cfg portfolio then
          firstEntry cfg portfolio quote chain
            (rankEntries (entryViews views cfg) cfg.volEnterMaxPct)
        else .ok none
      return (entered.or (rebalance views cfg portfolio quote chain)).getD
        (hold views cfg portfolio quote chain)

end Survival

end SumplusTrader
