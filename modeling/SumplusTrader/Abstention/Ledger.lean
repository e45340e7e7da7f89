import SumplusTrader.Python.Dict
import SumplusTrader.Python.Numeric
import SumplusTrader.Python.Text

/-!
# The abstention ledger

This file models `agent/abstention/ledger.py`: recording an abstention,
marking the recorded ones to market, and summing up what they have avoided and
missed. The ledger is the list of its records, in the order of the file.
-/

namespace SumplusTrader

structure Abstention where
  seq : ℤ
  ts : ℚ
  symbol : String
  reason : String
  side : String
  refPrice : ℚ
  sizeUsd : ℚ
  marked : Bool
  markTs : Option ℚ
  markPrice : Option ℚ
  hypotheticalPnlUsd : Option ℚ
deriving DecidableEq

namespace AbstentionLedger

def validReasons : List String :=
  ["stale_data", "vol_spike", "thin_liquidity", "drawdown_proximity", "slippage_mismatch",
    "regime_conflict", "exposure_full", "rate_or_interval"]

def record (records : List Abstention) (ts : ℚ) (symbol reason side : String)
    (refPrice sizeUsd : ℚ) : List Abstention :=
  let seq := match records.getLast? with
    | some last => last.seq + 1
    | none => 0
  records ++ [{
    seq := seq
    ts := ts
    symbol := Py.upper symbol
    reason := if reason ∈ validReasons then reason else "regime_conflict"
    side := side
    refPrice := refPrice
    sizeUsd := sizeUsd
    marked := false
    markTs := none
    markPrice := none
    hypotheticalPnlUsd := none }]

/-- One step of `mark_to_market`. -/
def mark (prices : Dict String ℚ) (nowTs minAgeS : ℚ) (r : Abstention) : Abstention :=
  if r.marked ∨ nowTs - r.ts < minAgeS then r
  else
    match prices.get? (Py.upper r.symbol) with
    | none => r
    | some px =>
        if r.refPrice = 0 then r
        else
          let move := (px - r.refPrice) / r.refPrice
          let sign : ℚ := if r.side = "buy" then 1 else -1
          { r with
            hypotheticalPnlUsd := some (Py.roundTo 4 (sign * move * r.sizeUsd))
            markPrice := some px
            markTs := some nowTs
            marked := true }

/-- Marks the unmarked abstentions that are old enough and have a price. -/
def markToMarket (records : List Abstention) (prices : Dict String ℚ) (nowTs minAgeS : ℚ) :
    List Abstention :=
  records.map (mark prices nowTs minAgeS)

structure Summary where
  abstentions : ℕ
  marked : ℕ
  avoidedLossUsd : ℚ
  missedGainUsd : ℚ
  netRestraintUsd : ℚ
  byReason : Dict String ℕ

/-- The hypothetical results of the marked abstentions. -/
def markedPnls (records : List Abstention) : List ℚ :=
  records.filterMap fun r => if r.marked then r.hypotheticalPnlUsd else none

def summary (records : List Abstention) : Summary :=
  let pnls := markedPnls records
  let avoidedLoss := ((pnls.filter fun pnl => pnl < 0).map fun pnl => -pnl).sum
  let missedGain := (pnls.filter fun pnl => 0 < pnl).sum
  { abstentions := records.length
    marked := pnls.length
    avoidedLossUsd := Py.roundTo 2 avoidedLoss
    missedGainUsd := Py.roundTo 2 missedGain
    netRestraintUsd := Py.roundTo 2 (avoidedLoss - missedGain)
    byReason := records.foldl
      (fun counts r => counts.set r.reason ((counts.get? r.reason).getD 0 + 1)) Dict.empty }

end AbstentionLedger

end SumplusTrader
