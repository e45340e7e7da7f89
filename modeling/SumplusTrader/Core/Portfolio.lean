import SumplusTrader.Strategy.Survival

/-!
# The book of the agent

This file models the parts of `agent/core.py` that read and write the state of
the agent: the portfolio that the strategy sees, the decision that an intent
stands for, the booking of a fill, and the marking of the net asset value.

The state is a dictionary in the source. A key whose default is a constant is
read with that default here; the keys whose default is another key stay optional.
-/

namespace SumplusTrader

structure HeldPosition where
  qty : ℚ
  entryPrice : ℚ
  entryTs : ℚ
deriving DecidableEq

structure PendingIntent where
  seq : ℤ
  side : Side
  fromToken : String
  toToken : String
  amountUsd : ℚ
  ts : String
deriving DecidableEq

/-- The state of the agent. A missing key is `none`, `0` or the empty book;
`lastTradeTs` is `0` before the first trade. -/
structure State where
  positions : Dict String HeldPosition
  nav : Option ℚ
  portfolioValueUsd : Option ℚ
  highWaterMark : Option ℚ
  stableUsd : Option ℚ
  lastTradeTs : ℚ
  tradesThisWeek : ℤ
  tradesLastHour : ℤ
  intentSeq : ℤ
  pendingIntent : Option PendingIntent

namespace State

def navOrDefault (state : State) : ℚ := state.nav.getD (state.portfolioValueUsd.getD 1000)

def highWater (state : State) : ℚ := state.highWaterMark.getD state.navOrDefault

def stable (state : State) : ℚ := state.stableUsd.getD (state.nav.getD 0)

/-- The quantity held of a symbol. -/
def qtyOf (state : State) (sym : String) : ℚ :=
  ((state.positions.get? sym).map HeldPosition.qty).getD 0

end State

/-- A token that the side of a decision treats as cash. -/
def isCash (token : String) : Prop := token = "USDT" ∨ token = "USDC"

instance (token : String) : Decidable (isCash token) := inferInstanceAs (Decidable (_ ∨ _))

def intentSide (intent : Intent) : Side :=
  match intent.action with
  | .enter => .buy
  | .exit => .sell
  | .rebalance => if isCash intent.toToken then .sell else .buy
  | .hold => .hold

def intentToDecision (intent : Intent) : Decision where
  side := intentSide intent
  chain := intent.chain
  fromToken := intent.fromToken
  toToken := intent.toToken
  amountUsd := intent.amountUsd
  confidence := intent.confidence
  rationale := intent.rationale

/-- The value of the book, unquoted tokens at their entry price. -/
def riskyUsd (state : State) (price : Dict String ℚ) : ℚ :=
  state.positions.total fun sym pos =>
    pos.qty * (price.get? (Py.upper sym)).getD pos.entryPrice

def drawdownPct (nav hwm : ℚ) : ℚ := if 0 < hwm then max 0 ((hwm - nav) / hwm * 100) else 0

/-- The positions under their upper-case symbols. -/
def strategyPositions (state : State) : Dict String Position :=
  Dict.ofList (state.positions.entries.map fun entry =>
    let sym := Py.upper entry.1
    (sym, ⟨sym, entry.2.qty, entry.2.entryPrice, entry.2.entryTs⟩))

/-- `wall` is the reading of the system clock. -/
def buildPortfolioState (state : State) (views : List TokenView) (wall : ℚ) : PortfolioState :=
  let risky := riskyUsd state (priceMap views)
  let nav := state.navOrDefault
  { navUsd := nav
    stableUsd := max 0 (nav - risky)
    positions := strategyPositions state
    drawdownPct := drawdownPct nav state.highWater
    riskyExposurePct := if 0 < nav then risky / nav else 0
    tradesThisWeek := state.tradesThisWeek
    secondsSinceLastTrade :=
      if state.lastTradeTs ≠ 0 then wall - state.lastTradeTs else 1000000000 }

/-- The price of a symbol, `0` when there is none: `price.get(sym) or 0.0`. -/
def priceOrZero (price : Dict String ℚ) (sym : String) : ℚ := (price.get? sym).getD 0

/-- The position after buying more of it. -/
def addToPosition (old : HeldPosition) (qty px : ℚ) : HeldPosition :=
  let total := old.qty + qty
  { old with
    qty := total
    entryPrice :=
      if total ≠ 0 then (old.entryPrice * old.qty + px * qty) / total else px }

/-- The book after a fill of a buy. -/
def applyBuy (state : State) (sym : String) (amountUsd px nowTs : ℚ) : State :=
  if 0 < px ∧ amountUsd ≤ state.stable + 1 / 1000000000 then
    let qty := amountUsd / px
    { state with
      positions := match state.positions.get? sym with
        | some old => state.positions.set sym (addToPosition old qty px)
        | none => state.positions.set sym ⟨qty, px, nowTs⟩
      stableUsd := some (state.stable - amountUsd) }
  else { state with stableUsd := some state.stable }

/-- The book after a fill of a sell. -/
def applySell (state : State) (sym : String) (amountUsd px : ℚ) : State :=
  match state.positions.get? sym with
  | none => { state with stableUsd := some state.stable }
  | some old =>
      if 0 < px then
        let sold := min old.qty (amountUsd / px)
        let left := old.qty - sold
        { state with
          positions := if left ≤ 1 / 1000000000 then state.positions.pop sym
            else state.positions.set sym { old with qty := left }
          stableUsd := some (state.stable + sold * px) }
      else { state with stableUsd := some state.stable }

def applyFill (state : State) (decision : Decision) (amountUsd : ℚ) (price : Dict String ℚ)
    (nowTs : ℚ) : State :=
  match decision.side with
  | .buy =>
      let sym := Py.upper decision.toToken
      applyBuy state sym amountUsd (priceOrZero price sym) nowTs
  | .sell =>
      let sym := Py.upper decision.fromToken
      applySell state sym amountUsd (priceOrZero price sym)
  | .hold => { state with stableUsd := some state.stable }

/-- The price that marking values a position at; a price of `0` counts as missing. -/
def markPrice (price : Dict String ℚ) (sym : String) (entryPrice : ℚ) : ℚ :=
  match price.get? (Py.upper sym) with
  | none => entryPrice
  | some px => if px = 0 then entryPrice else px

/-- The value of the book at the marking prices. -/
def markedUsd (state : State) (price : Dict String ℚ) : ℚ :=
  state.positions.total fun sym pos => pos.qty * markPrice price sym pos.entryPrice

/-- The net asset value and the state that records it. -/
def markNav (state : State) (price : Dict String ℚ) : ℚ × State :=
  let nav := state.stable + markedUsd state price
  (nav, { state with nav := some nav
                     highWaterMark := some (max (state.highWaterMark.getD nav) nav) })

end SumplusTrader
