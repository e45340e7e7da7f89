import SumplusTrader.Config
import SumplusTrader.Python.Text
import SumplusTrader.Backtest.Portfolio

/-!
# The champion of the backtest

This file models `backtest/champion.py`, the survival strategy that the backtest
runs. One call of `decide` gives one intent, by priority: the drawdown ladder, an
exit, an entry into the strongest asset that passes the entry filter, a
micro-rebalance, or nothing. It also keeps the hour since which the book is flat,
and rebaselines a book that has been flat for long enough.

The logarithm and the square root of the volatility are parameters.
-/

namespace SumplusTrader

namespace Backtest

/-- The functions of the mathematics library that the volatility is computed with. -/
structure FloatMath where
  log : ℚ → ℚ
  sqrt : ℚ → ℚ

inductive IntentAction where
  | buy
  | sell
  | flatten
  | hold
deriving DecidableEq

def IntentAction.text : IntentAction → String
  | .buy => "buy"
  | .sell => "sell"
  | .flatten => "flatten"
  | .hold => "hold"

/-- A trade instruction. The size of a buy is in USD, that of a sell a fraction. -/
structure Intent where
  action : IntentAction
  asset : String
  size : ℚ
  reason : String

def hold : Intent := ⟨.hold, "", 0, ""⟩

/-- What a strategy sees: the hour, the prices of that hour, and all prices up to it. -/
structure MarketState where
  t : ℤ
  prices : Dict String ℚ
  history : Dict String (List ℚ)

def MarketState.historyOf (market : MarketState) (asset : String) : List ℚ :=
  (market.history.get? asset).getD []

namespace Champion

structure Signal where
  momentumLookbacksH : List ℕ
  requireMomentumAgreement : Bool
  volEnterMaxPct : ℚ
  volWindowH : ℕ
deriving DecidableEq

structure Risk where
  maxSingleTradePct : ℚ
  minSingleTradePct : ℚ
  maxRiskyExposurePct : ℚ
  stopLossPct : ℚ
  takeProfitPct : ℚ
  maxHoldHours : ℤ
  maxTradesPerHour : ℕ
deriving DecidableEq

structure MinTrades where
  microRebalanceUsd : ℚ
  targetRiskyRatio : ℚ
  rebalanceBand : ℚ
  cadenceH : ℤ
deriving DecidableEq

structure Cfg where
  universeAssets : List String
  signal : Signal
  risk : Risk
  drawdownLadder : List Rung
  minTrades : MinTrades
deriving DecidableEq

/-- `DEFAULT_CFG`. -/
def defaultCfg : Cfg where
  universeAssets := ["WBNB", "BTCB", "ETH", "CAKE"]
  signal := {
    momentumLookbacksH := [1, 4]
    requireMomentumAgreement := true
    volEnterMaxPct := 4
    volWindowH := 24 }
  risk := {
    maxSingleTradePct := 0.03
    minSingleTradePct := 0.01
    maxRiskyExposurePct := 0.20
    stopLossPct := 3
    takeProfitPct := 4
    maxHoldHours := 48
    maxTradesPerHour := 4 }
  drawdownLadder := [⟨1.5, "halve_size"⟩, ⟨3, "no_new_risk"⟩, ⟨4, "stablecoin_mode"⟩]
  minTrades := {
    microRebalanceUsd := 12
    targetRiskyRatio := 0.15
    rebalanceBand := 0.05
    cadenceH := 12 }

/-- The return over the last hours, as a fraction. -/
def momentum (history : List ℚ) (lookback : ℕ) : ℚ :=
  if history.length < lookback + 1 then 0
  else
    let before := (history[history.length - (lookback + 1)]?).getD 0
    let now := (history.getLast?).getD 0
    if before ≤ 0 then 0 else now / before - 1

/-- The logarithmic returns between neighbouring prices that are positive. -/
def logReturns (math : FloatMath) (bars : List ℚ) : List ℚ :=
  ((bars.zip bars.tail).filter fun pair => 0 < pair.1 ∧ 0 < pair.2).map fun pair =>
    math.log (pair.2 / pair.1)

/-- `statistics.pstdev`. -/
def pstdev (math : FloatMath) (values : List ℚ) : ℚ :=
  let mean := values.sum / values.length
  math.sqrt ((values.map fun value => (value - mean) ^ 2).sum / values.length)

/-- The realised volatility of the last hours, in percent a day. -/
def realizedVolPct (math : FloatMath) (history : List ℚ) (window : ℕ) : ℚ :=
  let window := if history.length < window + 1 then history.length - 1 else window
  if window < 2 then 0
  else
    let logRets := logReturns math (history.drop (history.length - (window + 1)))
    if logRets.length < 2 then 0 else pstdev math logRets * math.sqrt 24 * 100

/-- The states of the drawdown ladder. -/
inductive LadderState where
  | ok
  | halve
  | noRisk
  | flatten
deriving DecidableEq

/-- The state that the action of a rung stands for; other actions change nothing. -/
def ladderAction (state : LadderState) (action : String) : LadderState :=
  if action = "halve_size" then .halve
  else if action = "no_new_risk" then .noRisk
  else if action = "stablecoin_mode" then .flatten
  else state

def ladderState (drawdownPct : ℚ) (ladder : List Rung) : LadderState :=
  ladder.foldl (fun state rung =>
    if rung.atPct ≤ drawdownPct then ladderAction state rung.action else state) .ok

def flatCooldownH : ℤ := 24

/-- Keeps the hour since which the book is flat, and rebaselines after the cooldown. -/
def rearm (p : Portfolio) (prices : Dict String ℚ) (hour : ℤ) : Portfolio :=
  if p.riskyValue prices ≤ 1 / 10 ^ 9 then
    match p.flatSince with
    | none => { p with flatSince := some hour }
    | some since =>
        if flatCooldownH ≤ hour - since ∧ 1 / 2 < p.currentDrawdown then p.rebaseline prices
        else p
  else { p with flatSince := none }

/-- The exit of one asset, when it is held and meets a rule. -/
def exitOf (cfg : Cfg) (market : MarketState) (p : Portfolio) (asset : String) :
    Except PyError (Option Intent) :=
  let sl := cfg.risk.stopLossPct / 100
  let tp := cfg.risk.takeProfitPct / 100
  if p.qtyOf asset ≤ 0 then .ok none
  else
    let entry := (p.entryPrice.get? asset).getD 0
    let entryH := (p.entryHour.get? asset).getD market.t
    match market.prices.get? asset with
    | none => .error (.keyError asset)
    | some px =>
        if px ≤ entry * (1 - sl) then
          .ok (some ⟨.sell, asset, 1,
            "stop_loss:" ++ asset ++ "@" ++ Py.fixedText 0 (-sl * 100) ++ "%"⟩)
        else if entry * (1 + tp) ≤ px then
          .ok (some ⟨.sell, asset, 1,
            "take_profit:" ++ asset ++ "@" ++ Py.fixedText 0 (tp * 100) ++ "%"⟩)
        else if cfg.risk.maxHoldHours ≤ market.t - entryH then
          .ok (some ⟨.sell, asset, 1, "time_stop:" ++ asset ++ "@" ++
            String.ofList (Json.intText cfg.risk.maxHoldHours) ++ "h"⟩)
        else .ok none

/-- The exit of the first asset that has one. -/
def firstExit (cfg : Cfg) (market : MarketState) (p : Portfolio) :
    List String → Except PyError (Option Intent)
  | [] => .ok none
  | asset :: assets => do
      match ← exitOf cfg market p asset with
      | some exit => return some exit
      | none => firstExit cfg market p assets

/-- The entry filter, on the momenta and the volatility of an asset. -/
def acceptsEntry (signal : Signal) (moms : List ℚ) (rvol : ℚ) : Bool :=
  if signal.requireMomentumAgreement ∧ ¬∀ m ∈ moms, 0 < m then false
  else if signal.volEnterMaxPct < rvol then false
  else true

/-- The share of the net asset value that an entry takes: scaled by volatility, and
halved on the first rung. -/
def entrySizePct (risk : Risk) (rvol : ℚ) (rung : LadderState) : ℚ :=
  let raw := if 0 < rvol then risk.maxSingleTradePct * (2 / rvol) else risk.maxSingleTradePct
  max risk.minSingleTradePct (min risk.maxSingleTradePct raw) *
    (if rung = .halve then 1 / 2 else 1)

/-- An asset that may be entered. -/
structure Candidate where
  asset : String
  score : ℚ
  sizePct : ℚ
  rvol : ℚ

/-- The candidate of an asset, when it has enough history and passes the filter. -/
def candidateOf (math : FloatMath) (cfg : Cfg) (market : MarketState) (rung : LadderState)
    (asset : String) : Option Candidate :=
  let hist := market.historyOf asset
  let lookbacks := cfg.signal.momentumLookbacksH
  if hist.length < lookbacks.foldl max 0 + 1 then none
  else
    let moms := lookbacks.map (momentum hist)
    let rvol := realizedVolPct math hist cfg.signal.volWindowH
    if acceptsEntry cfg.signal moms rvol then
      some ⟨asset, (moms.getLast?).getD 0, entrySizePct cfg.risk rvol rung, rvol⟩
    else none

/-- The candidate with the highest score; the first one of equals counts. -/
def better (best : Option Candidate) (candidate : Candidate) : Option Candidate :=
  match best with
  | none => some candidate
  | some held => if held.score < candidate.score then some candidate else some held

def bestCandidate (math : FloatMath) (cfg : Cfg) (market : MarketState) (rung : LadderState) :
    Option Candidate :=
  (cfg.universeAssets.filterMap (candidateOf math cfg market rung)).foldl better none

/-- An empty list of lookbacks has no maximum and no last entry. -/
def readsLookbacks (cfg : Cfg) : Bool :=
  cfg.signal.momentumLookbacksH ≠ [] ∨ cfg.universeAssets = []

/-- The best candidate can be paid for. -/
def affordable (nav cash : ℚ) (best : Candidate) : Bool :=
  0 < best.sizePct * nav ∧ best.sizePct * nav ≤ cash

/-- The candidate to enter, when the exposure is below the cap and there is cash for it. -/
def entry (math : FloatMath) (cfg : Cfg) (market : MarketState) (p : Portfolio)
    (rung : LadderState) : Except PyError (Option Candidate) :=
  if p.riskyRatio market.prices < cfg.risk.maxRiskyExposurePct then
    if readsLookbacks cfg then
      .ok ((bestCandidate math cfg market rung).filter (affordable (p.nav market.prices) p.cash))
    else .error (.raised "max() arg is an empty sequence")
  else .ok none

def entryIntent (nav : ℚ) (best : Candidate) : Intent where
  action := .buy
  asset := best.asset
  size := best.sizePct * nav
  reason := "entry:" ++ best.asset ++ " moms+ vol=" ++ Py.fixedText 1 best.rvol ++ "% sz=" ++
    Py.fixedText 1 (best.sizePct * 100) ++ "%"

/-- The asset with the strongest momentum; the first one of equals counts. -/
def stronger (best : Option (String × ℚ)) (scored : String × ℚ) : Option (String × ℚ) :=
  match best with
  | none => some scored
  | some held => if held.2 < scored.2 then some scored else some held

/-- The asset of the micro-rebalance. -/
def microPick (cfg : Cfg) (market : MarketState) : Option String :=
  let lookback := (cfg.signal.momentumLookbacksH.getLast?).getD 0
  let scored := (cfg.universeAssets.filter fun asset =>
    lookback < (market.historyOf asset).length).map fun asset =>
      (asset, momentum (market.historyOf asset) lookback)
  (scored.foldl stronger none).map Prod.fst

/-- The tiny buy toward the target ratio, when it is due. -/
def microRebalance (cfg : Cfg) (market : MarketState) (p : Portfolio) (rung : LadderState) :
    Except PyError (Option Intent) :=
  if rung = .ok then
    if cfg.minTrades.cadenceH = 0 then .error .zeroDivision
    else if cfg.minTrades.cadenceH ∣ market.t ∧ 0 < market.t ∧
        p.riskyRatio market.prices <
          cfg.minTrades.targetRiskyRatio - cfg.minTrades.rebalanceBand ∧
        cfg.minTrades.microRebalanceUsd ≤ p.cash then
      if readsLookbacks cfg then
        .ok ((microPick cfg market).map fun pick =>
          ⟨.buy, pick, cfg.minTrades.microRebalanceUsd, "micro_rebalance"⟩)
      else .error .indexError
    else .ok none
  else .ok none

/-- One decision: the portfolio with its flat hour and baseline kept, and the intent. -/
def decide (math : FloatMath) (market : MarketState) (p : Portfolio) (cfg : Cfg) :
    Except PyError (Portfolio × Intent) := do
  let nav := p.nav market.prices
  let armed := rearm p market.prices market.t
  let dd := armed.currentDrawdown
  let rung := ladderState dd cfg.drawdownLadder
  if rung = .flatten then
    if 1 / 10 ^ 9 < armed.riskyValue market.prices then
      return (armed, ⟨.flatten, "", 0, "ladder:stablecoin@dd=" ++ Py.fixedText 2 dd ++ "%"⟩)
    return (armed, hold)
  match ← firstExit cfg market armed cfg.universeAssets with
  | some exit => return (armed, exit)
  | none =>
      if rung = .noRisk then
        return (armed, hold)
      match ← entry math cfg market armed rung with
      | some best => return (armed, entryIntent nav best)
      | none => return (armed, (← microRebalance cfg market armed rung).getD hold)

end Champion

end Backtest

end SumplusTrader
