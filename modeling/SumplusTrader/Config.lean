import SumplusTrader.Types

/-!
# The strategy configuration

This file models the configuration dictionary that the decision pipeline reads.
`Config` holds the values the pipeline uses, with the types they have in the
committed configuration files, and `Config.ofJson` reads it from a document with
the defaults of the individual reads.

A document without a key that some read requires, or with a value of another
type where a read converts it, has no `Config`: the pipeline raises on it. Three
fields keep the literal they were written with, because it is printed in the
reason of a verdict. The `chains` object is kept as it stands: the pipeline
iterates over it, so its order and all of its keys are visible.
-/

namespace SumplusTrader

/-- The `risk` section. -/
structure Risk where
  maxSingleTradeUsd : ℚ
  maxSingleTradePct : ℚ
  minSingleTradePct : ℚ
  maxRiskyExposurePct : ℚ
  maxTradesPerHour : Json.Number
  minTradeIntervalSeconds : Json.Number
  stopLossPct : ℚ
  takeProfitPct : ℚ
  maxHoldHours : ℚ

/-- A rung of the drawdown ladder. -/
structure Rung where
  atPct : ℚ
  action : String
deriving DecidableEq

/-- A committed trading pair. -/
structure Pair where
  chain : String
  fromToken : String
  toToken : String
deriving DecidableEq

/-- A chain and two tokens are looked up in a whitelist by equality. -/
instance lawfulBEqPairs : LawfulBEq (String × String × String) := inferInstance

/-- The `min_trades` section. -/
structure MinTrades where
  targetRiskyRatio : ℚ
  rebalanceBand : ℚ
  microRebalanceUsd : ℚ

structure Config where
  chains : List (String × Json)
  universeTokens : List String
  quoteTokens : Option (List String)
  allowedTokens : List String
  allowedPairs : List Pair
  volEnterMaxPct : ℚ
  risk : Risk
  drawdownLadder : List Rung
  minTrades : MinTrades
  maxDataAgeSeconds : Json.Number

namespace Read

def asString : Json → Option String
  | .str s => some s
  | _ => none

def asNumber : Json → Option Json.Number
  | .num n => some n
  | _ => none

def asRat (value : Json) : Option ℚ := (asNumber value).map Json.Number.value

def asList {α : Type} (read : Json → Option α) : Json → Option (List α)
  | .arr items => items.mapM read
  | _ => none

/-- `section[key]`, converted. -/
def item {α : Type} (read : Json → Option α) (fields : Json) (key : String) : Option α :=
  (fields.get? key).bind read

/-- `section.get(key, default)`, converted. -/
def itemD {α : Type} (read : Json → Option α) (fields : Json) (key : String) (default : α) :
    Option α :=
  match fields.get? key with
  | none => some default
  | some value => read value

/-- `cfg.get(key, {})`, which must be an object to be read further. -/
def section? (cfg : Json) (key : String) : Option Json :=
  match cfg.get? key with
  | none => some (.obj [])
  | some (.obj fields) => some (.obj fields)
  | some _ => none

end Read

def Risk.ofJson (risk : Json) : Option Risk := do
  return {
    maxSingleTradeUsd := ← Read.item Read.asRat risk "max_single_trade_usd"
    maxSingleTradePct := ← Read.itemD Read.asRat risk "max_single_trade_pct" 0.03
    minSingleTradePct := ← Read.itemD Read.asRat risk "min_single_trade_pct" 0.01
    maxRiskyExposurePct := ← Read.itemD Read.asRat risk "max_risky_exposure_pct" 0.20
    maxTradesPerHour := ← Read.item Read.asNumber risk "max_trades_per_hour"
    minTradeIntervalSeconds := ← Read.item Read.asNumber risk "min_trade_interval_seconds"
    stopLossPct := ← Read.item Read.asRat risk "stop_loss_pct"
    takeProfitPct := ← Read.item Read.asRat risk "take_profit_pct"
    maxHoldHours := ← Read.item Read.asRat risk "max_hold_hours" }

def Rung.ofJson (rung : Json) : Option Rung := do
  return { atPct := ← Read.item Read.asRat rung "at_pct"
           action := ← Read.item Read.asString rung "action" }

def Pair.ofJson (pair : Json) : Option Pair := do
  return { chain := ← Read.item Read.asString pair "chain"
           fromToken := ← Read.item Read.asString pair "from"
           toToken := ← Read.item Read.asString pair "to" }

def MinTrades.ofJson (minTrades : Json) : Option MinTrades := do
  return {
    targetRiskyRatio := ← Read.itemD Read.asRat minTrades "target_risky_ratio" 0.15
    rebalanceBand := ← Read.itemD Read.asRat minTrades "rebalance_band" 0.05
    microRebalanceUsd := ← Read.itemD Read.asRat minTrades "micro_rebalance_usd" 12 }

/-- The entries of `cfg.get("chains", {})`, in the order of the document. -/
def chainEntries (cfg : Json) : Option (List (String × Json)) :=
  match Read.section? cfg "chains" with
  | some (.obj entries) => some entries
  | _ => none

/-- The values the pipeline reads, all at once: nothing when one of them is missing or of another
type. -/
def Config.ofJson (cfg : Json) : Option Config := do
  return {
    chains := ← chainEntries cfg
    universeTokens := ← Read.itemD (Read.asList Read.asString) cfg "universe" []
    quoteTokens := ← Read.itemD (fun value => (Read.asList Read.asString value).map some)
      cfg "quote_tokens" none
    allowedTokens := ← Read.itemD (Read.asList Read.asString) cfg "allowed_tokens" []
    allowedPairs := ← Read.itemD (Read.asList Pair.ofJson) cfg "allowed_pairs" []
    volEnterMaxPct := ← Read.itemD Read.asRat (← Read.section? cfg "signal")
      "vol_enter_max_pct" 4
    risk := ← (cfg.get? "risk").bind Risk.ofJson
    drawdownLadder := ← Read.itemD (Read.asList Rung.ofJson) cfg "drawdown_ladder" []
    minTrades := ← MinTrades.ofJson (← Read.section? cfg "min_trades")
    maxDataAgeSeconds := ← Read.itemD Read.asNumber (← Read.section? cfg "data")
      "max_data_age_seconds" (.int 600) }

/-- The committed drawdown ladder in ascending order of its thresholds. -/
def sortedLadder (ladder : List Rung) : List Rung :=
  ladder.insertionSort fun r s => r.atPct ≤ s.atPct

/-- The action of the last rung of a sorted ladder that the drawdown has reached. -/
def reachedRung (ladder : List Rung) (drawdownPct : ℚ) : String :=
  ladder.foldl (fun rung r => if r.atPct ≤ drawdownPct then r.action else rung) "none"

/-- The text of a number where a reason prints it. -/
def numberText : Json.Number → String
  | .int n => String.ofList (Json.intText n)
  | .float lit => String.ofList (Py.floatLit lit.value).text

/-- The values of the committed Injective profile. -/
def injectiveConfig : Config where
  chains := [("injective", .obj [("chain_id", .num (.int 1439)), ("enabled", .bool true)])]
  universeTokens := ["INJ"]
  quoteTokens := some ["USDT"]
  allowedTokens := ["USDT", "INJ"]
  allowedPairs := [⟨"injective", "USDT", "INJ"⟩, ⟨"injective", "INJ", "USDT"⟩]
  volEnterMaxPct := 4
  risk := {
    maxSingleTradeUsd := 2
    maxSingleTradePct := 0.25
    minSingleTradePct := 0.01
    maxRiskyExposurePct := 0.20
    maxTradesPerHour := .int 4
    minTradeIntervalSeconds := .int 900
    stopLossPct := 2
    takeProfitPct := 4
    maxHoldHours := 48 }
  drawdownLadder := [⟨1, "halve_size"⟩, ⟨2, "no_new_risk"⟩, ⟨3, "stablecoin_mode"⟩]
  minTrades := { targetRiskyRatio := 0.10, rebalanceBand := 0.04, microRebalanceUsd := 1.2 }
  maxDataAgeSeconds := .int 600

end SumplusTrader
