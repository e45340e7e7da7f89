import SumplusTrader.Core.Tick

/-!
# Replaying prices

This file models the two drivers that replay a price series through `tick`: `simulate` of
`agent/simulate.py` and `_run_week_live` of `backtest/real_data_live.py`. Both call `tick`
without an executor, hour by hour, and mark the net asset value after it; they differ in
the hours they visit, the drawdown that counts as a breach and the summary they return.

The series is arbitrary, and so is the standard deviation that the views report as the
volatility. The records for the dashboard and of the paid data are left out, as nothing
reads them back. A configuration that cannot be read makes the first tick raise, so the
replay ends before it.
-/

namespace SumplusTrader

namespace Simulation

/-- The prices of each symbol, by the hour. -/
abbrev Series := Dict String (List (ℚ × ℚ))

def priceAt (path : List (ℚ × ℚ)) (h : ℕ) : Except PyError ℚ :=
  match path[h]? with
  | none => .error .indexError
  | some (_, price) => .ok price

/-- `price / base - 1.0`. -/
def changeFrom (base price : ℚ) : Except PyError ℚ :=
  if base = 0 then .error .zeroDivision else .ok (price / base - 1)

/-- The hourly returns of the day before an hour. -/
def returnsAt (path : List (ℚ × ℚ)) (h : ℕ) : Except PyError (List ℚ) :=
  let first := max 1 (h - 23)
  (List.range' first (h + 1 - first)).mapM fun i => do
    changeFrom (← priceAt path (i - 1)) (← priceAt path i)

section Replay

variable (pstdev : List ℚ → ℚ)

def viewOf (sym : String) (path : List (ℚ × ℚ)) (h : ℕ) (nowTs : ℚ) : Except PyError TokenView := do
  let price ← priceAt path h
  let p1 ← if 1 ≤ h then priceAt path (h - 1) else .ok price
  let p4 ← if 4 ≤ h then priceAt path (h - 4) else .ok price
  let rets ← returnsAt path h
  let vol := if 1 < rets.length then pstdev rets * 100 else 0
  let change1 ← changeFrom p1 price
  let change4 ← changeFrom p4 price
  return ⟨sym, price, some (change1 * 100), some (change4 * 100), some vol, 0, 0, nowTs, .obj []⟩

def quoteView (nowTs : ℚ) (sym : String) : TokenView :=
  ⟨sym, 1, some 0, some 0, some 0.05, 0, 0, nowTs, .obj []⟩

/-- `_views_at`: the tokens with a series, then the quote tokens at a price of one. -/
def viewsAt (series : Series) (h : ℕ) (nowTs : ℚ) (cfg : Config) :
    Except PyError (List TokenView) := do
  let listed := cfg.universeTokens.filterMap fun sym =>
    ((series.get? sym).filter (· ≠ [])).map fun path => (sym, path)
  let views ← listed.mapM fun entry => viewOf pstdev entry.1 entry.2 h nowTs
  return views ++ (cfg.quoteTokens.getD ["USDT", "USDC"]).map (quoteView nowTs)

/-- What a replay is given; `wall` is the system clock during the tick of an hour. -/
structure Replay where
  cfg : Json
  series : Series
  baseTs : ℚ
  gatePct : Except PyError ℚ
  wall : ℕ → ℚ

/-- The largest drawdown so far, and the first hour at which it was a breach. -/
structure Tally where
  maxDd : ℚ
  breachHour : Option ℕ

/-- A tick of a replay, with the views of the tick before. -/
structure ReplayTick where
  world : World
  previous : Option (List TokenView)
  state : State
  views : List TokenView
  input : TickInput

def timeAt (replay : Replay) (h : ℕ) : ℚ := replay.baseTs + h * 3600

def inputAt (replay : Replay) (h : ℕ) (views : List TokenView) : TickInput where
  executor := none
  cfg := some replay.cfg
  nowTs := some (timeAt replay h)
  market := some (views, timeAt replay h)
  fetch := fun _ => .error .osError
  persist := none
  clock := replay.wall h
  stateClock := replay.wall h
  execLogFails := false

def tallyHour (tally : Tally) (gate : ℚ) (h : ℕ) (nav hwm : ℚ) : Tally :=
  let dd := if 0 < hwm then (hwm - nav) / hwm * 100 else 0
  { maxDd := max tally.maxDd dd
    breachHour := tally.breachHour.or (if gate ≤ dd then some h else none) }

/-- Replays the hours one after the other: the ticks made, and the last state, or the error
that ended the replay. -/
def replayHours (replay : Replay) (config : Config) (world : World)
    (previous : Option (List TokenView)) (state : State) (tally : Tally) :
    List ℕ → List ReplayTick × Except PyError (Option (List TokenView) × State × Tally)
  | [] => ([], .ok (previous, state, tally))
  | h :: hours =>
      match viewsAt pstdev replay.series h (timeAt replay h) config with
      | .error e => ([], .error e)
      | .ok views =>
          let input := inputAt replay h views
          let made : ReplayTick := ⟨world, previous, state, views, input⟩
          match Core.tick world state input with
          | (_, .error e) => ([made], .error e)
          | (fx, .ok (_, newState)) =>
              let marked := markNav newState (priceMap views)
              match replay.gatePct with
              | .error e => ([made], .error e)
              | .ok gate =>
                  let tally := tallyHour tally gate h marked.1 marked.2.highWater
                  let rest := replayHours replay config fx.world (some views) marked.2 tally hours
                  (made :: rest.1, rest.2)

/-- The state that a replay starts in. -/
def initialState (nav : ℚ) : State where
  positions := Dict.empty
  nav := some nav
  portfolioValueUsd := none
  highWaterMark := some nav
  stableUsd := some nav
  lastTradeTs := 0
  tradesThisWeek := 0
  tradesLastHour := 0
  intentSeq := 0
  pendingIntent := none

/-- The replay of a configuration from the initial state. -/
def startReplay (replay : Replay) (world : World) (nav : ℚ) (hours : List ℕ) :
    List ReplayTick × Except PyError (Option (List TokenView) × State × Tally) :=
  match Core.readConfig replay.cfg with
  | .error e => ([], .error e)
  | .ok config =>
      replayHours pstdev replay config world none (initialState nav) ⟨0, none⟩ hours

structure SimulateArgs where
  weeks : ℚ
  stepHours : ℕ
  nav0 : ℚ
  reset : Bool
  baseTs : Option ℚ

structure SimulateSummary where
  weeks : ℚ
  ticks : ℕ
  nav0 : ℚ
  finalNav : ℚ
  returnPct : ℚ
  maxDrawdownPct : ℚ
  gatePct : ℚ
  breachedGate : Bool
  trades : ℤ

/-- `range(4, hours, step)`. -/
def hoursOf (hours step : ℕ) : List ℕ :=
  (List.range ((hours - 4 + step - 1) / step)).map fun i => 4 + i * step

/-- `cfg["risk"]["max_drawdown_pct"]`. -/
def gateOf (cfg : Json) : Except PyError ℚ := do
  match Read.asRat (← index (← index cfg "risk") "max_drawdown_pct") with
  | none => .error .typeError
  | some gate => .ok gate

/-- The logs are removed when the simulator starts over. -/
def resetLogs (world : World) : World := { world with receipts := [], abstentions := [] }

/-- The ticks of the simulator and its summary. -/
def simulate (args : SimulateArgs) (world : World) (series : Series) (wall : ℕ → ℚ) :
    List ReplayTick × Except PyError SimulateSummary :=
  match loadConfig world.configFile with
  | .error e => ([], .error e)
  | .ok cfg =>
      if args.stepHours = 0 then ([], .error (.raised "range() arg 3 must not be zero"))
      else
        let replay : Replay := ⟨cfg, series, Core.enforcedNow args.baseTs 1750550400, gateOf cfg, wall⟩
        let hours := hoursOf ⌊args.weeks * 7 * 24⌋₊ args.stepHours
        let start := if args.reset then resetLogs world else world
        let run := startReplay pstdev replay start args.nav0 hours
        (run.1, do
          let (_, state, tally) ← run.2
          let gate ← gateOf cfg
          let change ← changeFrom args.nav0 state.navOrDefault
          return {
            weeks := args.weeks
            ticks := run.1.length
            nav0 := args.nav0
            finalNav := Py.roundTo 2 state.navOrDefault
            returnPct := Py.roundTo 2 (change * 100)
            maxDrawdownPct := Py.roundTo 2 tally.maxDd
            gatePct := gate
            breachedGate := tally.breachHour.isSome
            trades := state.tradesThisWeek })

structure WeekSummary where
  returnPct : ℚ
  maxDrawdownPct : ℚ
  breachedGate : Bool
  breachHour : Option ℕ
  trades : ℤ

/-- The ticks of a week of real prices and their summary; the logs go to a fresh
directory. -/
def runWeekLive (series : Series) (lo hi : ℕ) (cfg : Json) (baseTs : ℚ) (world : World)
    (wall : ℕ → ℚ) : List ReplayTick × Except PyError WeekSummary :=
  let replay : Replay := ⟨cfg, series, baseTs, .ok 6, wall⟩
  let run := startReplay pstdev replay (resetLogs world) 500 (List.range' lo (hi - lo))
  (run.1, do
    let (previous, state, tally) ← run.2
    match previous with
    | none => .error (.raised "cannot access local variable 'price'")
    | some views =>
        let finalNav := (markNav state (priceMap views)).1
        return {
          returnPct := Py.roundTo 2 ((finalNav / 500 - 1) * 100)
          maxDrawdownPct := Py.roundTo 2 tally.maxDd
          breachedGate := tally.breachHour.isSome
          breachHour := tally.breachHour.map (· - lo)
          trades := state.tradesThisWeek })

end Replay

end Simulation

end SumplusTrader
