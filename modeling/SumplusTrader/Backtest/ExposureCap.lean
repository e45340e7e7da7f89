import SumplusTrader.Backtest.Engine

/-!
# The exposure cap of the champion

This file relates a buy of the champion to its exposure cap. `decide` asks only that
the exposure before an entry is below the cap, and does not size the entry by the
room that is left; a micro-rebalance is not compared with the cap at all. A buy
therefore ends within the cap exactly when what it buys fits into it
(`executed_buy_within_cap_iff`).
-/

namespace SumplusTrader

namespace Backtest

namespace Champion

/-- The order that is next when the portfolio is asked, if it is a buy: that of the
candidate to enter, or else the micro-rebalance. -/
def orderUsd (math : FloatMath) (cfg : Cfg) (market : MarketState) (p : Portfolio) : ℚ :=
  let armed := rearm p market.prices market.t
  let rung := ladderState armed.currentDrawdown cfg.drawdownLadder
  match entry math cfg market armed rung with
  | .ok (some best) => best.sizePct * p.nav market.prices
  | _ => cfg.minTrades.microRebalanceUsd

/-- The fee of a swap and its slippage, as shares. -/
def feeRate : ℚ := Costs.default.feeBps / 10000

def slippage : ℚ := Costs.default.slippageBps / 10000

/-- The room that the cap leaves. -/
def roomUsd (capPct : ℚ) (prices : Dict String ℚ) (p : Portfolio) : ℚ :=
  capPct * p.nav prices - p.riskyValue prices

/-- The room that a dollar of an order takes: what it buys counts as exposure, and its fee
and slippage lower the net asset value. -/
def roomShare (capPct : ℚ) : ℚ := (1 - capPct) / (1 + slippage) + capPct * (1 + feeRate)

/-- There is room for an order. An order that cannot be paid for together with its fee
takes all cash, and leaves an exposure of one. -/
def Fits (capPct : ℚ) (prices : Dict String ℚ) (p : Portfolio) (usd : ℚ) : Prop :=
  if p.cash < usd * (1 + feeRate) then
    if p.riskyValue prices + (p.cash - usd * feeRate) / (1 + slippage) ≤ 0 then 0 ≤ capPct
    else 1 ≤ capPct
  else if p.nav prices ≤ usd * (1 + feeRate - 1 / (1 + slippage)) then 0 ≤ capPct
  else usd * roomShare capPct ≤ roomUsd capPct prices p

variable {math : FloatMath} {cfg : Cfg} {market : MarketState} {p armed next : Portfolio}
  {intent : Intent} {prices : Dict String ℚ} {hour : ℤ}

/-- Asking changes neither cash nor positions. -/
theorem rearm_same (p : Portfolio) (prices : Dict String ℚ) (hour : ℤ) :
    (rearm p prices hour).cash = p.cash ∧ (rearm p prices hour).positions = p.positions ∧
      (rearm p prices hour).entryPrice = p.entryPrice ∧
      (rearm p prices hour).entryHour = p.entryHour := by
  unfold rearm
  split
  · split
    · exact ⟨rfl, rfl, rfl, rfl⟩
    · split
      · exact ⟨rfl, rfl, rfl, rfl⟩
      · exact ⟨rfl, rfl, rfl, rfl⟩
  · exact ⟨rfl, rfl, rfl, rfl⟩

theorem sound_rearm (sound : Sound p) (prices : Dict String ℚ) (hour : ℤ) :
    Sound (rearm p prices hour) := by
  rcases rearm_same p prices hour with ⟨cash, positions, entryPrice, entryHour⟩
  refine ⟨?_, ?_, ?_, ?_⟩
  · rw [cash]
    exact sound.cash
  · rw [positions]
    exact sound.positive
  · rw [entryPrice, positions]
    exact sound.entryPrice
  · rw [entryHour, positions]
    exact sound.entryHour

theorem exitOf_sells {asset : String} {exit : Intent}
    (found : exitOf cfg market p asset = .ok (some exit)) : exit.action = .sell := by
  dsimp only [exitOf] at found
  split at found
  · cases found
  · split at found
    · cases found
    · split at found
      · cases found
        rfl
      · split at found
        · cases found
          rfl
        · split at found
          · cases found
            rfl
          · cases found

theorem firstExit_sells {assets : List String} {exit : Intent}
    (found : firstExit cfg market p assets = .ok (some exit)) : exit.action = .sell := by
  induction assets with
  | nil => cases found
  | cons asset assets ih =>
      rw [firstExit] at found
      rcases bind_eq_ok_iff.1 found with ⟨first, firstFound, found⟩
      cases first with
      | some own =>
          cases found
          exact exitOf_sells firstFound
      | none => exact ih found

/-- A micro-rebalance has its configured size, and cash for it. -/
theorem microRebalance_buys {rung : LadderState} {buy : Intent}
    (due : microRebalance cfg market p rung = .ok (some buy)) :
    buy.size = cfg.minTrades.microRebalanceUsd ∧ cfg.minTrades.microRebalanceUsd ≤ p.cash := by
  unfold microRebalance at due
  split at due
  · split at due
    · cases due
    · split at due
      · next ready =>
        split at due
        · rw [Except.ok.injEq, Option.map_eq_some_iff] at due
          rcases due with ⟨pick, -, rfl⟩
          exact ⟨rfl, ready.2.2.2⟩
        · cases due
      · cases due
  · cases due

theorem entry_affordable {rung : LadderState} {best : Candidate}
    (enters : entry math cfg market p rung = .ok (some best)) :
    best.sizePct * p.nav market.prices ≤ p.cash := by
  unfold entry at enters
  split at enters
  · split at enters
    · rw [Except.ok.injEq, Option.filter_eq_some_iff] at enters
      have paid := enters.2
      simp only [affordable, Bool.decide_and, Bool.and_eq_true, decide_eq_true_eq] at paid
      exact paid.2
    · cases enters
  · cases enters

/-- What a decision leaves of the portfolio, and the order of a buy. -/
theorem decide_cases (decided : decide math market p cfg = .ok (armed, intent)) :
    armed = rearm p market.prices market.t ∧
      (intent.action = .buy → intent.size = orderUsd math cfg market p ∧ intent.size ≤ p.cash) := by
  have cash := (rearm_same p market.prices market.t).1
  have nav : (rearm p market.prices market.t).nav market.prices = p.nav market.prices := by
    rw [Portfolio.nav, Portfolio.riskyValue, cash, (rearm_same p market.prices market.t).2.1]
    rfl
  dsimp only [decide] at decided
  split at decided
  · split at decided
    · cases decided
      exact ⟨rfl, fun buys => by cases buys⟩
    · cases decided
      exact ⟨rfl, fun buys => by cases buys⟩
  · rcases bind_eq_ok_iff.1 decided with ⟨exit, exits, decided⟩
    cases exit with
    | some exit =>
        cases decided
        refine ⟨rfl, fun buys => ?_⟩
        rw [firstExit_sells exits] at buys
        cases buys
    | none =>
        dsimp only at decided
        split at decided
        · cases decided
          exact ⟨rfl, fun buys => by cases buys⟩
        · rcases bind_eq_ok_iff.1 decided with ⟨best, enters, decided⟩
          cases best with
          | some best =>
              cases decided
              refine ⟨rfl, fun _ => ?_⟩
              have paid := entry_affordable enters
              rw [nav, cash] at paid
              refine ⟨?_, paid⟩
              rw [orderUsd]
              simp only [enters]
              rfl
          | none =>
              rcases bind_eq_ok_iff.1 decided with ⟨micro, due, decided⟩
              cases decided
              refine ⟨rfl, fun buys => ?_⟩
              cases micro with
              | none => cases buys
              | some micro =>
                  have size := microRebalance_buys due
                  rw [cash] at size
                  rw [Option.getD_some, size.1, orderUsd]
                  simp only [enters]
                  exact ⟨trivial, size.2⟩

theorem keepsSound_decide (math : FloatMath) (cfg : Cfg) :
    KeepsSound fun market p => decide math market p cfg := by
  intro market p asked intent sound decided
  rw [(decide_cases decided).1]
  exact sound_rearm sound market.prices market.t

/-- Every portfolio that a backtest of the champion reaches is sound. -/
theorem sound_backtest {pricesPerAsset : Dict String (List ℚ)} {hours : List ℕ}
    {last : Portfolio × List LedgerLine}
    (ran : runStrategy (fun market p => decide math market p cfg) pricesPerAsset hours =
      .ok last) : Sound last.1 :=
  sound_runStrategy (keepsSound_decide math cfg) ran

theorem Fits.congr {capPct usd : ℚ} (cash : armed.cash = p.cash)
    (positions : armed.positions = p.positions) :
    Fits capPct prices armed usd ↔ Fits capPct prices p usd := by
  rw [Fits, Fits, roomUsd, roomUsd, Portfolio.nav, Portfolio.nav, Portfolio.riskyValue,
    Portfolio.riskyValue, cash, positions]

theorem riskyRatio_le_iff {capPct : ℚ} (p : Portfolio) (prices : Dict String ℚ) :
    p.riskyRatio prices ≤ capPct ↔
      if p.nav prices ≤ 0 then 0 ≤ capPct else p.riskyValue prices ≤ capPct * p.nav prices := by
  unfold Portfolio.riskyRatio
  split
  · exact Iff.rfl
  · next worth => exact div_le_iff₀ (not_le.1 worth)

/-- What a buy that is executed leaves of the cash and of the value of the positions. -/
theorem executed_buy (sound : Sound p) (buys : intent.action = .buy) (paid : intent.size ≤ p.cash)
    (executed : execute intent p prices hour = .ok (next, true)) :
    let spend := Portfolio.spendOf p.cash intent.size (intent.size * feeRate)
    0 < intent.size ∧ next.cash = p.cash - (spend + intent.size * feeRate) ∧
      next.riskyValue prices = p.riskyValue prices + spend / (1 + slippage) := by
  unfold execute at executed
  rw [buys] at executed
  dsimp only at executed
  split at executed
  · cases executed
  · next price quoted =>
    cases bought : p.buy intent.asset intent.size price hour .default with
    | error e =>
        rw [bought] at executed
        cases executed
    | ok filled =>
        rcases filled with ⟨filled, spent⟩
        rw [bought] at executed
        simp only [Except.map, Except.ok.injEq, Prod.mk.injEq, decide_eq_true_eq] at executed
        rcases executed with ⟨rfl, costs⟩
        rcases Portfolio.buy_cases bought with
          ⟨-, nothing⟩ | ⟨gross, fee, spend, added, rfl, rfl, rfl, priced, asked, some, -, filling,
            result, -⟩
        · rw [nothing] at costs
          exact absurd costs (lt_irrefl 0)
        · have fee : min intent.size p.cash * Costs.default.feeBps / 10000 =
              intent.size * feeRate := by
            rw [min_eq_left paid, feeRate, mul_div_assoc]
          rw [fee, min_eq_left paid] at filling some result
          rw [min_eq_left paid] at asked
          have fillPositive : 0 < price * (1 + slippage) := by
            apply mul_pos priced
            norm_num [slippage, Costs.default]
          have grown := riskyValue_addQty sound quoted (div_pos some fillPositive) filling
          rw [result]
          refine ⟨asked, rfl, ?_⟩
          change added.riskyValue prices = _
          rw [grown]
          congr 1
          field_simp

/-- An order leaves the exposure within the cap exactly when there is room for it. -/
theorem riskyRatio_le_iff_fits {capPct : ℚ} (sound : Sound p) (buys : intent.action = .buy)
    (paid : intent.size ≤ p.cash)
    (executed : execute intent p prices hour = .ok (next, true)) :
    next.riskyRatio prices ≤ capPct ↔ Fits capPct prices p intent.size := by
  rcases executed_buy sound buys paid executed with ⟨asked, cash, risky⟩
  have worth : next.nav prices = next.cash + next.riskyValue prices := rfl
  have before : p.nav prices = p.cash + p.riskyValue prices := rfl
  have smallFee : intent.size * feeRate ≤ intent.size := by
    apply mul_le_of_le_one_right asked.le
    norm_num [feeRate, Costs.default]
  rw [riskyRatio_le_iff, worth, cash, risky, Fits, mul_one_add]
  by_cases short : p.cash < intent.size + intent.size * feeRate
  · have all : Portfolio.spendOf p.cash intent.size (intent.size * feeRate) =
        p.cash - intent.size * feeRate := by
      rw [Portfolio.spendOf, if_pos short, max_eq_right (by linarith)]
    rw [if_pos short, all, sub_add_cancel, sub_self, zero_add]
    by_cases worthless :
        p.riskyValue prices + (p.cash - intent.size * feeRate) / (1 + slippage) ≤ 0
    · rw [if_pos worthless, if_pos worthless]
    · rw [if_neg worthless, if_neg worthless]
      exact le_mul_iff_one_le_left (not_le.1 worthless)
  · have whole : Portfolio.spendOf p.cash intent.size (intent.size * feeRate) = intent.size := by
      rw [Portfolio.spendOf, if_neg short]
    have left : p.cash - (intent.size + intent.size * feeRate) +
        (p.riskyValue prices + intent.size / (1 + slippage)) =
          p.nav prices - intent.size * (1 + feeRate - 1 / (1 + slippage)) := by
      rw [before]
      ring
    rw [if_neg short, whole, left]
    by_cases worthless : p.nav prices ≤ intent.size * (1 + feeRate - 1 / (1 + slippage))
    · rw [if_pos (sub_nonpos.2 worthless), if_pos worthless]
    · rw [if_neg (mt sub_nonpos.1 worthless), if_neg worthless, roomUsd, roomShare]
      have rearranged : capPct * p.nav prices - p.riskyValue prices -
          intent.size * ((1 - capPct) / (1 + slippage) + capPct * (1 + feeRate)) =
            capPct * (p.nav prices - intent.size * (1 + feeRate - 1 / (1 + slippage))) -
              (p.riskyValue prices + intent.size / (1 + slippage)) := by
        ring
      rw [← sub_nonneg, ← rearranged, sub_nonneg]

/-- An executed buy of the champion ends within the exposure cap exactly when there is room
for its order. -/
theorem executed_buy_within_cap_iff (math : FloatMath) (cfg : Cfg) (market : MarketState)
    (p armed next : Portfolio) (intent : Intent) (hour : ℤ) (sound : Sound p)
    (decided : decide math market p cfg = .ok (armed, intent)) (buys : intent.action = .buy)
    (executed : execute intent armed market.prices hour = .ok (next, true)) :
    next.riskyRatio market.prices ≤ cfg.risk.maxRiskyExposurePct ↔
      Fits cfg.risk.maxRiskyExposurePct market.prices p (orderUsd math cfg market p) := by
  rcases decide_cases decided with ⟨rfl, order⟩
  rcases order buys with ⟨size, paid⟩
  rcases rearm_same p market.prices market.t with ⟨cash, positions, -⟩
  rw [← cash] at paid
  rw [riskyRatio_le_iff_fits (sound_rearm sound _ _) buys paid executed, size,
    Fits.congr cash positions]

/-- The logarithm of a rise by one percent, and the square roots of nothing and of 24. -/
def risingMath : FloatMath where
  log _ := 0.00995033085316808
  sqrt x := if x = 0 then 0 else 4.898979485566356

/-- A price that rises by one percent in every hour. -/
def risingPrices : Dict String (List ℚ) :=
  Dict.ofList [("ETH", (List.range 6).map fun hour => 2000 * (101 / 100) ^ hour)]

def risingMarket (hour : ℕ) : MarketState where
  t := hour
  prices := Dict.ofList [("ETH", 2000 * (101 / 100) ^ hour)]
  history := Dict.ofList [("ETH", (List.range (hour + 1)).map fun hour => 2000 * (101 / 100) ^ hour)]

/-- The action that the champion decides on, whether it is executed, and the exposure that
it leaves. -/
def askOnce (math : FloatMath) (cfg : Cfg) (market : MarketState) (p : Portfolio) (hour : ℤ) :
    Except PyError (IntentAction × Bool × ℚ) := do
  let (armed, intent) ← decide math market p cfg
  let (next, executed) ← execute intent armed market.prices hour
  return (intent.action, executed, next.riskyRatio market.prices)

/-- The first entry into the rising market. -/
theorem executed_buy_within_cap_iff_firstEntry :
    ∃ armed intent next, decide risingMath (risingMarket 4) (newPortfolio initialNav) defaultCfg =
        .ok (armed, intent) ∧
      execute intent armed (risingMarket 4).prices 4 = .ok (next, true) ∧
      (next.riskyRatio (risingMarket 4).prices ≤ defaultCfg.risk.maxRiskyExposurePct ↔
        Fits defaultCfg.risk.maxRiskyExposurePct (risingMarket 4).prices
          (newPortfolio initialNav)
          (orderUsd risingMath defaultCfg (risingMarket 4) (newPortfolio initialNav))) := by
  have entered : ((askOnce risingMath defaultCfg (risingMarket 4) (newPortfolio initialNav) 4).map
      fun asked => (asked.1, asked.2.1)).toOption = some (.buy, true) := by
    decide +kernel
  cases asked : askOnce risingMath defaultCfg (risingMarket 4) (newPortfolio initialNav) 4 with
  | error e =>
      rw [asked] at entered
      cases entered
  | ok seen =>
      rw [asked] at entered
      rw [askOnce] at asked
      rcases bind_eq_ok_iff.1 asked with ⟨⟨armed, intent⟩, decided, asked⟩
      rcases bind_eq_ok_iff.1 asked with ⟨⟨next, executed⟩, applied, asked⟩
      cases asked
      simp only [Except.map, Except.toOption, Option.some.injEq, Prod.mk.injEq] at entered
      rcases entered with ⟨buys, rfl⟩
      have sound : Sound (newPortfolio initialNav) :=
        sound_newPortfolio (by norm_num [initialNav])
      exact ⟨armed, intent, next, decided, applied,
        executed_buy_within_cap_iff risingMath defaultCfg (risingMarket 4)
          (newPortfolio initialNav) armed next intent 4 sound decided buys applied⟩

/-- In a rising market the seventh entry takes the exposure from 18% to 21%, over the cap
of 20%. -/
theorem seventh_entry_exceeds_cap :
    (do
      let (p, ledger) ← runStrategy (fun market p => decide risingMath market p defaultCfg)
        risingPrices (List.range 5)
      let market ← marketAt risingPrices 5
      let (p, _) ← rounds (fun market p => decide risingMath market p defaultCfg) market 5 2 p
        ledger
      let (action, executed, ratio) ← askOnce risingMath defaultCfg market p 5
      return ((action, executed), (p.riskyRatio market.prices < 0.19 : Bool),
        (defaultCfg.risk.maxRiskyExposurePct < ratio : Bool)) : Except PyError _).toOption =
      some ((IntentAction.buy, true), true, true) := by
  decide +kernel

end Champion

end Backtest

end SumplusTrader
