import SumplusTrader.Backtest.Champion
import SumplusTrader.Strategy.Signals
import SumplusTrader.Python.Numeric

/-!
# The strategy specification

This file models `build_spec` and `to_backtest_cfg` of `generate_spec.py`. The first
writes a specification from a base configuration and a market regime, the second
reads a specification back as a configuration of the champion.

The specification has no place for the lookbacks, the volatility window and the
values of the micro-rebalance, so these come back as constants. The agreement flag
is always written as true, and the ladder is written by position, under the names
of the actions of the committed ladder. The configuration that comes back therefore
agrees with the base configuration exactly when the base has these values
(`toBacktestCfg_agrees_iff`).

Texts of the specification that nothing reads are left out.
-/

namespace SumplusTrader

namespace StrategySpec

open Backtest

/-- The ceiling of the exposure in each regime. -/
def regimeExposure : RegimeState → ℚ
  | .riskOn => 0.12
  | .neutral => 0.08
  | .riskOff => 0.04

/-- The `min_trades` section; the committed configurations have no cadence. -/
structure MinTrades where
  microRebalanceUsd : ℚ
  targetRiskyRatio : ℚ
  rebalanceBand : ℚ
  cadenceH : Option ℤ

/-- The base configuration, as far as the skill or the champion reads it. -/
structure BaseCfg where
  universeAssets : List String
  quoteTokens : Option (List String)
  signal : Champion.Signal
  risk : Champion.Risk
  minTradeIntervalSeconds : ℚ
  maxDrawdownPct : ℚ
  drawdownLadder : List Rung
  internalHardKillPct : ℚ
  minTrades : MinTrades

structure RegimeRead where
  regime : RegimeState
  fearGreedIndex : ℚ
  avgMomentum4hPct : ℚ
  avgRealizedVolPct : ℚ
  source : String

structure Entry where
  requireMomentumAgreement1h4h : Bool
  maxEntryVolPct : ℚ

structure Sizing where
  perTradePctNav : ℚ × ℚ
  volatilityScaled : Bool
  maxRiskyExposurePct : ℚ

structure Ladder where
  halveSizeAt : ℚ
  noNewRiskAt : ℚ
  flattenToStablecoinAt : ℚ
  internalHardKillAt : ℚ
  eliminationGateAt : ℚ

structure Exits where
  stopLossPct : ℚ
  takeProfitPct : ℚ
  maxHoldHours : ℤ

structure RateLimits where
  maxTradesPerHour : ℕ
  minTradeIntervalSeconds : ℚ

end StrategySpec

/-- A specification. -/
structure StrategySpec where
  universeAssets : List String
  quoteTokens : List String
  regimeRead : StrategySpec.RegimeRead
  entry : StrategySpec.Entry
  sizing : StrategySpec.Sizing
  drawdownLadderPct : StrategySpec.Ladder
  exits : StrategySpec.Exits
  rateLimits : StrategySpec.RateLimits

namespace StrategySpec

open Backtest

/-- The specification of a base configuration in a regime, with the readings of the market.
The ladder must have three rungs, and each is written under the name of its place. -/
def buildSpec (hasApiKey : Bool) (cfg : BaseCfg) (regime : RegimeState)
    (fng avgMom4h avgVol : ℚ) : Except PyError StrategySpec :=
  match cfg.drawdownLadder with
  | first :: second :: third :: _ => .ok {
      universeAssets := cfg.universeAssets
      quoteTokens := cfg.quoteTokens.getD ["USDT", "USDC"]
      regimeRead := {
        regime := regime
        fearGreedIndex := Py.roundTo 1 fng
        avgMomentum4hPct := Py.roundTo 3 avgMom4h
        avgRealizedVolPct := Py.roundTo 3 avgVol
        source := if hasApiKey then "coinmarketcap" else "offline-scenario" }
      entry := {
        requireMomentumAgreement1h4h := true
        maxEntryVolPct := cfg.signal.volEnterMaxPct }
      sizing := {
        perTradePctNav := (cfg.risk.minSingleTradePct, cfg.risk.maxSingleTradePct)
        volatilityScaled := true
        maxRiskyExposurePct := regimeExposure regime }
      drawdownLadderPct := {
        halveSizeAt := first.atPct
        noNewRiskAt := second.atPct
        flattenToStablecoinAt := third.atPct
        internalHardKillAt := cfg.internalHardKillPct
        eliminationGateAt := cfg.maxDrawdownPct }
      exits := {
        stopLossPct := cfg.risk.stopLossPct
        takeProfitPct := cfg.risk.takeProfitPct
        maxHoldHours := cfg.risk.maxHoldHours }
      rateLimits := {
        maxTradesPerHour := cfg.risk.maxTradesPerHour
        minTradeIntervalSeconds := cfg.minTradeIntervalSeconds } }
  | _ => .error .indexError

/-- The configuration that the champion reads from a specification. -/
def toBacktestCfg (spec : StrategySpec) : Champion.Cfg where
  universeAssets := spec.universeAssets
  signal := {
    momentumLookbacksH := [1, 4]
    requireMomentumAgreement := spec.entry.requireMomentumAgreement1h4h
    volEnterMaxPct := spec.entry.maxEntryVolPct
    volWindowH := 24 }
  risk := {
    maxSingleTradePct := spec.sizing.perTradePctNav.2
    minSingleTradePct := spec.sizing.perTradePctNav.1
    maxRiskyExposurePct := spec.sizing.maxRiskyExposurePct
    stopLossPct := spec.exits.stopLossPct
    takeProfitPct := spec.exits.takeProfitPct
    maxHoldHours := spec.exits.maxHoldHours
    maxTradesPerHour := spec.rateLimits.maxTradesPerHour }
  drawdownLadder := [
    ⟨spec.drawdownLadderPct.halveSizeAt, "halve_size"⟩,
    ⟨spec.drawdownLadderPct.noNewRiskAt, "no_new_risk"⟩,
    ⟨spec.drawdownLadderPct.flattenToStablecoinAt, "stablecoin_mode"⟩]
  minTrades := {
    microRebalanceUsd := 12
    targetRiskyRatio := 0.10
    rebalanceBand := 0.04
    cadenceH := 12 }

/-- A configuration of the champion agrees with a base configuration on what the champion
reads, except for the exposure cap, which is the ceiling of the regime. -/
structure Agrees (base : BaseCfg) (regime : RegimeState) (cfg : Champion.Cfg) : Prop where
  universeAssets : cfg.universeAssets = base.universeAssets
  signal : cfg.signal = base.signal
  risk : cfg.risk = { base.risk with maxRiskyExposurePct := regimeExposure regime }
  ladder : ∀ rung, rung ∈ cfg.drawdownLadder ↔ rung ∈ base.drawdownLadder
  microRebalanceUsd : cfg.minTrades.microRebalanceUsd = base.minTrades.microRebalanceUsd
  targetRiskyRatio : cfg.minTrades.targetRiskyRatio = base.minTrades.targetRiskyRatio
  rebalanceBand : cfg.minTrades.rebalanceBand = base.minTrades.rebalanceBand
  cadenceH : ∀ cadenceH, base.minTrades.cadenceH = some cadenceH →
    cfg.minTrades.cadenceH = cadenceH

/-- The ladder that comes back: the thresholds by place, with the actions of the places. -/
def namedLadder (first second third : Rung) : List Rung :=
  [⟨first.atPct, "halve_size"⟩, ⟨second.atPct, "no_new_risk"⟩, ⟨third.atPct, "stablecoin_mode"⟩]

/-- The threshold at the place of an action in the committed ladder. -/
def thresholdOf (first second third : Rung) : String → Option ℚ
  | "halve_size" => some first.atPct
  | "no_new_risk" => some second.atPct
  | "stablecoin_mode" => some third.atPct
  | _ => none

/-- All three actions occur in the ladder, and each rung has the threshold that stands at
the place of its action. -/
structure InPlace (first second third : Rung) : Prop where
  occurs : ∀ action ∈ ["halve_size", "no_new_risk", "stablecoin_mode"],
    ∃ rung ∈ [first, second, third], rung.action = action
  threshold : ∀ rung ∈ [first, second, third],
    thresholdOf first second third rung.action = some rung.atPct

/-- The base configuration has the values that are not carried by a specification. -/
structure Carried (base : BaseCfg) (first second third : Rung) : Prop where
  agreement : base.signal.requireMomentumAgreement = true
  lookbacks : base.signal.momentumLookbacksH = [1, 4]
  volWindow : base.signal.volWindowH = 24
  ladder : InPlace first second third
  microRebalanceUsd : base.minTrades.microRebalanceUsd = 12
  targetRiskyRatio : base.minTrades.targetRiskyRatio = 0.10
  rebalanceBand : base.minTrades.rebalanceBand = 0.04
  cadenceH : base.minTrades.cadenceH = none ∨ base.minTrades.cadenceH = some 12

theorem mem_ladder_iff {first second third rung : Rung} :
    rung ∈ namedLadder first second third ↔
      thresholdOf first second third rung.action = some rung.atPct := by
  rcases rung with ⟨atPct, action⟩
  dsimp only
  unfold thresholdOf
  split
  · simp [namedLadder, eq_comm]
  · simp [namedLadder, eq_comm]
  · simp [namedLadder, eq_comm]
  · next halve risk stable =>
    refine iff_of_false (fun mem => ?_) nofun
    rw [namedLadder, List.mem_cons, List.mem_cons, List.mem_singleton] at mem
    rcases mem with same | same | same
    · exact halve (congrArg Rung.action same)
    · exact risk (congrArg Rung.action same)
    · exact stable (congrArg Rung.action same)

/-- The ladder by names has the rungs of the base ladder exactly when these are in place. -/
theorem same_ladder_iff (first second third : Rung) :
    (∀ rung, rung ∈ namedLadder first second third ↔ rung ∈ [first, second, third]) ↔
      InPlace first second third := by
  constructor
  · intro same
    constructor
    · intro action known
      rw [List.mem_cons, List.mem_cons, List.mem_singleton] at known
      rcases known with rfl | rfl | rfl
      · exact ⟨_, (same ⟨first.atPct, "halve_size"⟩).1 (.head _), rfl⟩
      · exact ⟨_, (same ⟨second.atPct, "no_new_risk"⟩).1 (.tail _ (.head _)), rfl⟩
      · exact ⟨_, (same ⟨third.atPct, "stablecoin_mode"⟩).1 (.tail _ (.tail _ (.head _))), rfl⟩
    · intro rung mem
      exact mem_ladder_iff.1 ((same rung).2 mem)
  · intro inPlace rung
    constructor
    · intro mem
      have known : rung.action ∈ ["halve_size", "no_new_risk", "stablecoin_mode"] := by
        rw [namedLadder, List.mem_cons, List.mem_cons, List.mem_singleton] at mem
        rcases mem with rfl | rfl | rfl
        · exact .head _
        · exact .tail _ (.head _)
        · exact .tail _ (.tail _ (.head _))
      rcases inPlace.occurs rung.action known with ⟨own, ownMem, sameAction⟩
      have threshold := inPlace.threshold own ownMem
      rw [sameAction, mem_ladder_iff.1 mem, Option.some.injEq] at threshold
      have same : rung = own := by
        rcases rung with ⟨atPct, action⟩
        rcases own with ⟨ownPct, ownAction⟩
        exact Rung.mk.injEq .. ▸ ⟨threshold, sameAction.symm⟩
      rw [same]
      exact ownMem
    · intro mem
      exact mem_ladder_iff.2 (inPlace.threshold rung mem)

/-- What comes back from the specification of a base configuration with three rungs agrees
with it exactly when the base has the values that are not carried. -/
theorem toBacktestCfg_agrees_iff (hasApiKey : Bool) (base : BaseCfg) (first second third : Rung)
    (regime : RegimeState) (fng avgMom4h avgVol : ℚ) :
    (∃ spec, buildSpec hasApiKey { base with drawdownLadder := [first, second, third] } regime
        fng avgMom4h avgVol = .ok spec ∧
      Agrees { base with drawdownLadder := [first, second, third] } regime
        (toBacktestCfg spec)) ↔
      Carried base first second third := by
  constructor
  · rintro ⟨spec, built, agrees⟩
    cases built
    rcases agrees with ⟨-, signal, -, ladder, micro, target, band, cadence⟩
    have lookbacks := congrArg Champion.Signal.momentumLookbacksH signal
    have agreement := congrArg Champion.Signal.requireMomentumAgreement signal
    have volWindow := congrArg Champion.Signal.volWindowH signal
    refine ⟨agreement.symm, lookbacks.symm, volWindow.symm,
      (same_ladder_iff first second third).1 ladder, micro.symm, target.symm, band.symm, ?_⟩
    cases scheduled : base.minTrades.cadenceH with
    | none => exact .inl rfl
    | some cadenceH => exact .inr (congrArg some (cadence cadenceH scheduled).symm)
  · intro carried
    refine ⟨_, rfl, ?_⟩
    constructor
    · rfl
    · have signal : base.signal = ⟨[1, 4], true, base.signal.volEnterMaxPct, 24⟩ := by
        rw [← carried.lookbacks, ← carried.agreement, ← carried.volWindow]
      exact signal.symm
    · rfl
    · exact (same_ladder_iff first second third).2 carried.ladder
    · exact carried.microRebalanceUsd.symm
    · exact carried.targetRiskyRatio.symm
    · exact carried.rebalanceBand.symm
    · intro cadenceH scheduled
      dsimp only at scheduled
      rcases carried.cadenceH with unscheduled | twelve
      · rw [unscheduled] at scheduled
        cases scheduled
      · rw [twelve] at scheduled
        cases scheduled
        rfl

/-- The values of the committed Injective profile. -/
def injectiveBase : BaseCfg where
  universeAssets := ["INJ"]
  quoteTokens := some ["USDT"]
  signal := {
    momentumLookbacksH := [1, 4]
    requireMomentumAgreement := true
    volEnterMaxPct := 4
    volWindowH := 24 }
  risk := {
    maxSingleTradePct := 0.25
    minSingleTradePct := 0.01
    maxRiskyExposurePct := 0.20
    stopLossPct := 2
    takeProfitPct := 4
    maxHoldHours := 48
    maxTradesPerHour := 4 }
  minTradeIntervalSeconds := 900
  maxDrawdownPct := 6
  drawdownLadder := [⟨1, "halve_size"⟩, ⟨2, "no_new_risk"⟩, ⟨3, "stablecoin_mode"⟩]
  internalHardKillPct := 3
  minTrades := {
    microRebalanceUsd := 1.2
    targetRiskyRatio := 0.10
    rebalanceBand := 0.04
    cadenceH := none }

/-- The micro-rebalance of the Injective profile comes back as ten times its size. -/
theorem injective_profile_disagrees :
    ∃ spec, buildSpec false injectiveBase .neutral 52 0 0 = .ok spec ∧
      (toBacktestCfg spec).minTrades.microRebalanceUsd =
        10 * injectiveBase.minTrades.microRebalanceUsd ∧
      ¬Agrees injectiveBase .neutral (toBacktestCfg spec) := by
  refine ⟨_, rfl, by norm_num [toBacktestCfg, injectiveBase], fun agrees => ?_⟩
  have same := agrees.microRebalanceUsd
  norm_num [toBacktestCfg, injectiveBase] at same

end StrategySpec

end SumplusTrader
