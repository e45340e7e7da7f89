import SumplusTrader.Python.Dict
import SumplusTrader.Types

/-!
# The portfolio of the backtest

This file models `backtest/portfolio.py`: cash, positions with the price and the hour of their
entry, and two histories that are written at every mark. One of them is the net asset value. The
other is the drawdown from the high-water mark of the portfolio, which `rebaseline` lowers; the
last drawdown on record is then overwritten as well.

A buy raises before it changes anything; a flatten that raises keeps the sells it has made.
-/

namespace SumplusTrader

namespace Backtest

/-- The costs of a swap in basis points. -/
structure Costs where
  feeBps : ℚ
  slippageBps : ℚ

/-- `DEFAULT_FEE_BPS` and `DEFAULT_SLIPPAGE_BPS`. -/
def Costs.default : Costs := ⟨25, 30⟩

structure Portfolio where
  initialCash : ℚ
  cash : ℚ
  positions : Dict String ℚ
  entryPrice : Dict String ℚ
  entryHour : Dict String ℤ
  hwm : ℚ
  navHistory : List ℚ
  drawdownHistory : List ℚ
  tradeCount : ℕ
  hoursInMarket : ℕ
  flatSince : Option ℤ

/-- `new_portfolio`. -/
def newPortfolio (initialCash : ℚ) : Portfolio where
  initialCash := initialCash
  cash := initialCash
  positions := Dict.empty
  entryPrice := Dict.empty
  entryHour := Dict.empty
  hwm := initialCash
  navHistory := []
  drawdownHistory := []
  tradeCount := 0
  hoursInMarket := 0
  flatSince := none

namespace Portfolio

/-- The quantity held of an asset. -/
def qtyOf (p : Portfolio) (asset : String) : ℚ := (p.positions.get? asset).getD 0

/-- The value of a quantity; quantities that are not positive count as nothing. -/
def valueOf (prices : Dict String ℚ) (asset : String) (qty : ℚ) : ℚ :=
  if 0 < qty then qty * (prices.get? asset).getD 0 else 0

def riskyValue (p : Portfolio) (prices : Dict String ℚ) : ℚ := p.positions.total (valueOf prices)

def nav (p : Portfolio) (prices : Dict String ℚ) : ℚ := p.cash + p.riskyValue prices

def riskyRatio (p : Portfolio) (prices : Dict String ℚ) : ℚ :=
  if p.nav prices ≤ 0 then 0 else p.riskyValue prices / p.nav prices

/-- Updates the high-water mark and appends to the histories; the drawdown is returned. -/
def mark (p : Portfolio) (prices : Dict String ℚ) : Portfolio × ℚ :=
  let n := p.nav prices
  let hwm := if p.hwm < n then n else p.hwm
  let ddPct := if hwm ≤ 0 then 0 else (hwm - n) / hwm * 100
  ({ p with
      navHistory := p.navHistory ++ [n]
      hwm := hwm
      drawdownHistory := p.drawdownHistory ++ [ddPct]
      hoursInMarket :=
        if 1 / 10 ^ 9 < p.riskyValue prices then p.hoursInMarket + 1 else p.hoursInMarket },
    ddPct)

def currentDrawdown (p : Portfolio) : ℚ := p.drawdownHistory.getLast?.getD 0

/-- Resets the high-water mark to the net asset value, and the last drawdown to zero. -/
def rebaseline (p : Portfolio) (prices : Dict String ℚ) : Portfolio :=
  { p with
    hwm := p.nav prices
    drawdownHistory := p.drawdownHistory.set (p.drawdownHistory.length - 1) 0
    flatSince := none }

/-- What a buy commits apart from its fee. -/
def spendOf (cash gross fee : ℚ) : ℚ := if cash < gross + fee then max 0 (cash - fee) else gross

/-- Adds a quantity to a position, with the average price of its entries. -/
def addQty (p : Portfolio) (asset : String) (qty fillPrice : ℚ) (hour : ℤ) :
    Except PyError Portfolio :=
  let prevQty := p.qtyOf asset
  let positions := p.positions.set asset (prevQty + qty)
  if 0 < prevQty then
    match p.entryPrice.get? asset with
    | none => .error (.keyError asset)
    | some entry =>
        if prevQty + qty = 0 then .error .zeroDivision
        else .ok { p with
          entryPrice :=
            p.entryPrice.set asset ((entry * prevQty + fillPrice * qty) / (prevQty + qty))
          positions := positions }
  else .ok { p with
    entryPrice := p.entryPrice.set asset fillPrice
    entryHour := p.entryHour.set asset hour
    positions := positions }

/-- Buys for at most some amount of cash; what was spent is returned. -/
def buy (p : Portfolio) (asset : String) (usd price : ℚ) (hour : ℤ) (costs : Costs) :
    Except PyError (Portfolio × ℚ) :=
  let gross := min usd p.cash
  let fee := gross * costs.feeBps / 10000
  let spend := spendOf p.cash gross fee
  let fillPrice := price * (1 + costs.slippageBps / 10000)
  if price ≤ 0 ∨ usd ≤ 0 ∨ gross ≤ 0 ∨ spend ≤ 0 then .ok (p, 0)
  else if fillPrice = 0 then .error .zeroDivision
  else
    match p.addQty asset (spend / fillPrice) fillPrice hour with
    | .error e => .error e
    | .ok bought =>
        .ok ({ bought with cash := p.cash - (spend + fee), tradeCount := p.tradeCount + 1 },
          spend + fee)

section

variable {p next : Portfolio} {asset : String} {qty fillPrice usd price spent : ℚ} {hour : ℤ}
  {costs : Costs}

/-- What adding a quantity does: a position is averaged in, or opened. -/
theorem addQty_cases (added : p.addQty asset qty fillPrice hour = .ok next) :
    (0 < p.qtyOf asset ∧ ∃ entry average, p.entryPrice.get? asset = some entry ∧
      next = { p with
        entryPrice := p.entryPrice.set asset average
        positions := p.positions.set asset (p.qtyOf asset + qty) }) ∨
    (p.qtyOf asset ≤ 0 ∧ next = { p with
      entryPrice := p.entryPrice.set asset fillPrice
      entryHour := p.entryHour.set asset hour
      positions := p.positions.set asset (p.qtyOf asset + qty) }) := by
  dsimp only [addQty] at added
  split at added
  · next held =>
    split at added
    · cases added
    · next entry found =>
      split at added
      · cases added
      · cases added
        exact .inl ⟨held, entry, _, found, rfl⟩
  · next fresh =>
    cases added
    exact .inr ⟨not_lt.1 fresh, rfl⟩

/-- What a buy does: nothing, or a fill that is paid for. -/
theorem buy_cases (bought : p.buy asset usd price hour costs = .ok (next, spent)) :
    (next = p ∧ spent = 0) ∨ ∃ gross fee spend added,
      gross = min usd p.cash ∧ fee = gross * costs.feeBps / 10000 ∧
      spend = spendOf p.cash gross fee ∧ 0 < price ∧ 0 < gross ∧ 0 < spend ∧
      price * (1 + costs.slippageBps / 10000) ≠ 0 ∧
      p.addQty asset (spend / (price * (1 + costs.slippageBps / 10000)))
        (price * (1 + costs.slippageBps / 10000)) hour = .ok added ∧
      next = { added with cash := p.cash - (spend + fee), tradeCount := p.tradeCount + 1 } ∧
      spent = spend + fee := by
  dsimp only [buy] at bought
  split at bought
  · cases bought
    exact .inl ⟨rfl, rfl⟩
  · next proceeds =>
    push Not at proceeds
    split at bought
    · cases bought
    · next priced =>
      split at bought
      · cases bought
      · next added found =>
        cases bought
        exact .inr ⟨_, _, _, added, rfl, rfl, rfl, proceeds.1, proceeds.2.2.1, proceeds.2.2.2,
          priced, found, rfl, rfl⟩

end

/-- Leaves a quantity of a position; a residue is removed. -/
def setQty (p : Portfolio) (asset : String) (qty : ℚ) : Portfolio :=
  if qty ≤ 1 / 10 ^ 12 then
    { p with
      positions := p.positions.pop asset
      entryPrice := p.entryPrice.pop asset
      entryHour := p.entryHour.pop asset }
  else { p with positions := p.positions.set asset qty }

/-- Sells a fraction of a position; the proceeds are returned. -/
def sell (p : Portfolio) (asset : String) (fraction price : ℚ) (costs : Costs) : Portfolio × ℚ :=
  let qty := p.qtyOf asset
  if qty ≤ 0 ∨ price ≤ 0 ∨ fraction ≤ 0 then (p, 0)
  else
    let sellQty := qty * min 1 fraction
    let gross := sellQty * (price * (1 - costs.slippageBps / 10000))
    let proceeds := gross - gross * costs.feeBps / 10000
    ({ p.setQty asset (qty - sellQty) with
        cash := p.cash + proceeds
        tradeCount := p.tradeCount + 1 }, proceeds)

/-- Sells some assets in full, until one of them has no price. -/
def sellAll (prices : Dict String ℚ) (costs : Costs) :
    Portfolio → ℕ → List String → Portfolio × Except PyError ℕ
  | p, fills, [] => (p, .ok fills)
  | p, fills, asset :: assets =>
      match prices.get? asset with
      | none => (p, .error (.keyError asset))
      | some price =>
          let sold := p.sell asset 1 price costs
          sellAll prices costs sold.1 (if 0 < sold.2 then fills + 1 else fills) assets

/-- Sells everything; the number of fills is returned. -/
def flatten (p : Portfolio) (prices : Dict String ℚ) (costs : Costs) :
    Portfolio × Except PyError ℕ :=
  sellAll prices costs p 0 p.positions.keys

end Portfolio

end Backtest

end SumplusTrader
