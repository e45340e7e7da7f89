import SumplusTrader.Core.Portfolio
import SumplusTrader.Policy.Engine
import SumplusTrader.Policy.ExecLog
import SumplusTrader.Abstention.Ledger
import SumplusTrader.Execution.Executor

/-!
# The decision tick

This file models `tick` of `agent/core.py`, together with the files it touches. A
tick first prepares its judgement without writing anything: it loads the
configuration, asks the strategy for an intent and the policy engine for a
verdict. It then appends a receipt, records an abstention when it holds back,
executes an approved trade, and marks the old abstentions to market.

`World` is what is on disk, and `Effects` a world with the events of the tick so
far. A tick that raises keeps the effects it had. The market feed, the clock and
the persistence callback are inputs; an input of the clock is one reading of it.
-/

namespace SumplusTrader

/-- What is on disk. -/
structure World where
  configFile : Option String
  receipts : List Char
  executions : List Char
  abstentions : List Abstention
  snapshot : Option State

/-- What a tick does to the outside, in order. -/
inductive Event where
  | receiptAppended (receipt : Receipt)
  | abstentionRecorded (symbol : String)
  | intentPersisted (pending : PendingIntent)
  | orderSent (decision : Decision) (amountUsd : ℚ) (cid : String)
  | executionLogged (record : ExecutionRecord)
  | executionLogFailed

structure Effects where
  world : World
  events : List Event

/-- The arguments of a tick, and what the outside answers during it. `clock` and
`stateClock` are the readings of the system clock at the start and while the
portfolio is built; `execLogFails` is a failing append to the execution log. -/
structure TickInput where
  executor : Option Executor
  cfg : Option Json
  nowTs : Option ℚ
  market : Option (List TokenView × ℚ)
  fetch : List String → Except PyError (List TokenView × ℚ)
  persist : Option (Except PyError Unit)
  clock : ℚ
  stateClock : ℚ
  execLogFails : Bool

/-- What a tick has decided before it writes anything. -/
structure Judgement where
  cfg : Config
  views : List TokenView
  nowTs : ℚ
  intent : Intent
  decision : Decision
  verdict : PolicyVerdict
  inputsDigest : String

structure TickResult where
  intentAction : IntentAction
  decision : Decision
  verdict : PolicyAction
  reason : String
  ladderRung : String
  receiptHash : String
  executed : Bool
  abstained : Bool

namespace Core

/-- `cfg or load_config()`. -/
def enforcedConfig (configFile : Option String) (cfg : Option Json) : Except PyError Json :=
  match cfg with
  | none => loadConfig configFile
  | some cfg => if cfg.truthy then .ok cfg else loadConfig configFile

/-- `now_ts or time.time()`. -/
def enforcedNow (nowTs : Option ℚ) (clock : ℚ) : ℚ :=
  match nowTs with
  | none => clock
  | some nowTs => if nowTs = 0 then clock else nowTs

/-- The first enabled chain, in the order of the document. -/
def tradeChain : List (String × Json) → Except PyError String
  | [] => .ok "bsc"
  | (chain, .obj fields) :: chains =>
      if ((Json.obj fields).get? "enabled").any Json.truthy then .ok chain else tradeChain chains
  | (_, _) :: _ => .error .attributeError

/-- `cfg.get("quote_tokens", ["USDT"])[0]`. -/
def firstQuote (cfg : Config) : Except PyError String :=
  match cfg.quoteTokens.getD ["USDT"] with
  | [] => .error .indexError
  | quote :: _ => .ok quote

def portfolioView (pstate : PortfolioState) (state : State) : PortfolioView where
  navUsd := pstate.navUsd
  drawdownPct := pstate.drawdownPct
  riskyExposurePct := pstate.riskyExposurePct
  tradesLastHour := state.tradesLastHour
  secondsSinceLastTrade := pstate.secondsSinceLastTrade

def marketView (cfg : Config) (views : List TokenView) (dataTs nowTs : ℚ) : MarketView where
  dataAgeS := max 0 (nowTs - dataTs)
  regime := if rankEntries views cfg.volEnterMaxPct = [] then "risk_off" else "risk_on"

def inputsDigest (views : List TokenView) (drawdown : ℚ) : String :=
  digest (.obj [("views", .arr (views.map TokenView.toJson)), ("drawdown", Py.floatJson drawdown)])

/-- The decision of an intent and the verdict on it. -/
def judgement (cfg : Config) (state : State) (views : List TokenView)
    (dataTs nowTs stateClock : ℚ) (intent : Intent) : Judgement :=
  let pstate := buildPortfolioState state views stateClock
  let decision := intentToDecision intent
  { cfg := cfg
    views := views
    nowTs := nowTs
    intent := intent
    decision := decision
    verdict := (PolicyEngine.ofConfig cfg).check decision (portfolioView pstate state)
      (marketView cfg views dataTs nowTs)
    inputsDigest := inputsDigest views pstate.drawdownPct }

/-- The intent, the decision and the verdict under a configuration. -/
def judge (cfg : Config) (state : State) (views : List TokenView) (dataTs nowTs stateClock : ℚ) :
    Except PyError Judgement := do
  let pstate := buildPortfolioState state views stateClock
  let chain ← tradeChain cfg.chains
  let quote ← firstQuote cfg
  let intent ← Survival.decide views pstate cfg nowTs quote chain
  return judgement cfg state views dataTs nowTs stateClock intent

/-- The configuration as the pipeline reads it. -/
def readConfig (cfg : Json) : Except PyError Config :=
  match Config.ofJson cfg with
  | none => .error .typeError
  | some cfg => .ok cfg

/-- The views and their time stamp: injected, or fetched for the symbols. -/
def marketData (cfg : Config) (input : TickInput) : Except PyError (List TokenView × ℚ) :=
  match input.market with
  | some market => .ok market
  | none => input.fetch (cfg.universeTokens ++ cfg.quoteTokens.getD [])

/-- The committed policy hash and the judgement of a tick. -/
def prepare (configFile : Option String) (state : State) (input : TickInput) :
    Except PyError (String × Judgement) := do
  let json ← enforcedConfig configFile input.cfg
  let ph ← committedPolicyHash configFile
  let cfg ← readConfig json
  let (views, dataTs) ← marketData cfg input
  let j ← judge cfg state views dataTs (enforcedNow input.nowTs input.clock) input.stateClock
  return (ph, j)

/-- The verdict text of a receipt. -/
def receiptVerdict (verdict : PolicyVerdict) : String :=
  if verdict.kind = .hold then "hold" else verdict.action.text

def receiptArgs (ph : String) (j : Judgement) : ReceiptArgs where
  policyHash := .ofString ph
  kind := .ofString j.verdict.kind.text
  decision := ⟨j.decision.toJson, j.decision.distinctKeys_toJson⟩
  verdict := .ofString (receiptVerdict j.verdict)
  reason := .ofString j.verdict.reason
  inputsDigest := .ofString j.inputsDigest
  ts := .ofString (Py.isoText j.nowTs)

/-- The symbol of a declined trade: its risky token, else the best candidate, else the
biggest mover. -/
def abstainedSymbol (j : Judgement) (stables : List String) : Option String :=
  let risky := [j.decision.fromToken, j.decision.toToken].filterMap fun t =>
    if Py.upper t ∈ stables then none else some (Py.upper t)
  let rejected := if j.verdict.action = .reject ∧ j.decision.isTrade then risky.head? else none
  let candidate := (rankEntries j.views j.cfg.volEnterMaxPct).head?.map fun scored =>
    Py.upper scored.1.symbol
  let movers := j.views.filter fun view =>
    Py.upper view.symbol ∉ stables ∧ view.pct4h.isSome
  let mover := (movers.argmax fun view => |view.pct4h.getD 0|).map fun view =>
    Py.upper view.symbol
  (rejected.or candidate).or mover

def abstentionReason (j : Judgement) : String :=
  if j.verdict.action = .reject then
    let reason := j.verdict.reason
    if Py.contains reason "drawdown" ∨ Py.contains reason "stablecoin" then "drawdown_proximity"
    else if Py.contains reason "stale" then "stale_data"
    else if Py.contains reason "rate" then "rate_or_interval"
    else if Py.contains reason "exposure" then "exposure_full"
    else "regime_conflict"
  else if j.intent.abstainReason = "" then "regime_conflict" else j.intent.abstainReason

/-- The symbol and reference price of the abstention to record, if any. -/
def abstention? (j : Judgement) : Option (String × ℚ) :=
  if j.intent.action = .hold ∨ j.verdict.action = .reject then
    let stables := j.cfg.quoteTokens.getD ["USDT", "USDC"]
    (abstainedSymbol j stables).bind fun sym =>
      let px := priceOrZero (priceMap j.views) sym
      if sym ≠ "" ∧ sym ∉ stables ∧ px ≠ 0 then some (sym, px) else none
  else none

def bookAbstention (fx : Effects) (j : Judgement) : Effects :=
  match abstention? j with
  | none => fx
  | some (sym, px) =>
      { world := { fx.world with
          abstentions := AbstentionLedger.record fx.world.abstentions j.nowTs sym
            (abstentionReason j) "buy" px (j.cfg.risk.maxSingleTradeUsd * 0.3) }
        events := fx.events ++ [.abstentionRecorded sym] }

/-- Goes on with the effects and the value of a part of a tick, unless it raised. -/
def andThen {α β : Type} (part : Effects × Except PyError α)
    (next : Effects → α → Effects × Except PyError β) : Effects × Except PyError β :=
  match part with
  | (fx, .error e) => (fx, .error e)
  | (fx, .ok a) => next fx a

/-- The intent that is marked as pending before an order is sent. -/
def pendingIntent (state : State) (j : Judgement) (amount : ℚ) : PendingIntent where
  seq := state.intentSeq + 1
  side := j.decision.side
  fromToken := j.decision.fromToken
  toToken := j.decision.toToken
  amountUsd := amount
  ts := Py.isoText j.nowTs

/-- Stages the pending intent through the persistence callback, when there is one. -/
def stageIntent (fx : Effects) (state : State) (pending : PendingIntent)
    (persist : Option (Except PyError Unit)) : Effects × Except PyError Unit :=
  match persist with
  | none => (fx, .ok ())
  | some (.error e) => (fx, .error e)
  | some (.ok ()) =>
      let staged := { state with intentSeq := pending.seq, pendingIntent := some pending }
      ({ world := { fx.world with snapshot := some staged }
         events := fx.events ++ [.intentPersisted pending] }, .ok ())

/-- Hands an order to the executor. -/
def sendOrder (fx : Effects) (executor : Executor) (j : Judgement) (amount : ℚ) (cid : String) :
    Effects × Except PyError ExecutionResult :=
  ({ fx with events := fx.events ++ [.orderSent j.decision amount cid] },
    executor.execute j.decision amount cid)

/-- `(detail or {}).get("source") == "injective"`. -/
def isInjective (detail : Json) : Except PyError Bool :=
  if ¬detail.truthy then .ok false
  else
    match detail with
    | .obj fields => .ok (isStr (((Json.obj fields).get? "source").getD .null) "injective")
    | _ => .error .attributeError

/-- Binds an order of the Injective backend to its receipt. A failing append is
swallowed. -/
def logExecution (fx : Effects) (receipt : Receipt) (cid : String) (j : Judgement)
    (result : ExecutionResult) (fails : Bool) : Effects × Except PyError Unit :=
  match isInjective result.detail.tree with
  | .error e => (fx, .error e)
  | .ok false => (fx, .ok ())
  | .ok true =>
      if fails then ({ fx with events := fx.events ++ [.executionLogFailed] }, .ok ())
      else
        let r := ExecLog.executionRecord receipt.seq receipt.hash cid (Py.isoText j.nowTs)
          result.executed result.detail.tree result.error
        ({ world := { fx.world with executions := ExecLog.recordExecution fx.world.executions r }
           events := fx.events ++ [.executionLogged r] }, .ok ())

/-- Sends an approved order and binds it to its receipt. -/
def placeOrder (fx : Effects) (executor : Executor) (j : Judgement) (receipt : Receipt)
    (logFails : Bool) : Effects × Except PyError ExecutionResult :=
  let cid := receiptCid receipt.hash
  andThen (sendOrder fx executor j j.verdict.finalAmountUsd cid) fun fx result =>
    andThen (logExecution fx receipt cid j result logFails) fun fx _ => (fx, .ok result)

/-- The state after a trade was executed, or not. -/
def settle (state : State) (j : Judgement) (amount : ℚ) (executed : Bool) : State :=
  if executed then
    { applyFill state j.decision amount (priceMap j.views) j.nowTs with
      lastTradeTs := j.nowTs
      tradesThisWeek := state.tradesThisWeek + 1 }
  else state

/-- The part of a tick that carries out an approved trade: whether it was executed,
and the next state. -/
def carryOut (fx : Effects) (state : State) (input : TickInput) (j : Judgement)
    (receipt : Receipt) : Effects × Except PyError (Bool × State) :=
  let amount := j.verdict.finalAmountUsd
  let cleared := { state with pendingIntent := none }
  if ¬(j.verdict.allowed ∧ j.decision.isTrade) then (fx, .ok (false, cleared))
  else
    match input.executor with
    | none => (fx, .ok (true, settle cleared j amount true))
    | some executor =>
        if executor.simulates then
          andThen (placeOrder fx executor j receipt input.execLogFails) fun fx _ =>
            (fx, .ok (true, settle cleared j amount true))
        else
          let pending := pendingIntent state j amount
          andThen (stageIntent fx cleared pending input.persist) fun fx _ =>
            andThen (placeOrder fx executor j receipt input.execLogFails) fun fx result =>
              let numbered := { cleared with intentSeq := pending.seq }
              (fx, .ok (result.executed, settle numbered j amount result.executed))

def markAbstentions (world : World) (j : Judgement) : World :=
  { world with
    abstentions := AbstentionLedger.markToMarket world.abstentions (priceMap j.views) j.nowTs
      (24 * 3600) }

def tickResult (j : Judgement) (receipt : Receipt) (executed : Bool) : TickResult where
  intentAction := j.intent.action
  decision := j.decision
  verdict := j.verdict.action
  reason := j.verdict.reason
  ladderRung := j.verdict.ladderRung
  receiptHash := receipt.hash
  executed := executed
  abstained := (abstention? j).isSome

/-- What a tick does after its receipt is written. -/
def act (fx : Effects) (state : State) (input : TickInput) (j : Judgement) (receipt : Receipt) :
    Effects × Except PyError (TickResult × State) :=
  andThen (carryOut (bookAbstention fx j) state input j receipt) fun fx carried =>
    ({ fx with world := markAbstentions fx.world j },
      .ok (tickResult j receipt carried.1, carried.2))

def tick (world : World) (state : State) (input : TickInput) :
    Effects × Except PyError (TickResult × State) :=
  match prepare world.configFile state input with
  | .error e => (⟨world, []⟩, .error e)
  | .ok (ph, j) =>
      match ReceiptChain.append world.receipts (receiptArgs ph j) with
      | .error e => (⟨world, []⟩, .error e)
      | .ok (log, receipt) =>
          act ⟨{ world with receipts := log }, [.receiptAppended receipt]⟩ state input j receipt

end Core

end SumplusTrader
