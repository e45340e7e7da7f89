import SumplusTrader.Core.LiveTick
import SumplusTrader.Live.Reconcile
import SumplusTrader.Ops.PersistentState

/-!
# One iteration of the live loop

This file models `_loop_once_forever` of `agent/run_live.py`: what the loop sets up when it
starts, and what one iteration does. An iteration fetches the market, reconciles the state with
the chain when the deployment can, and then holds, clears a pending intent that it finds, or runs
the decision tick and writes a snapshot.

The effects of an iteration are listed in their order, so that a crash can fall between any two
of them. The market, the services, the clock and the files other than the snapshot are inputs of
each iteration. A write that fails is a crash before or after it.
-/

namespace SumplusTrader

/-- What the process is started with: the environment, whether the wallet tool is installed, and
what the configuration file is read as. -/
structure Deployment where
  env : Environ
  onPath : Bool
  config : Except PyError Json

def Deployment.ofFile (env : Environ) (onPath : Bool) (configFile : Option String) : Deployment :=
  ⟨env, onPath, loadConfig configFile⟩

theorem Deployment.ofFile_dumps (env : Environ) (onPath : Bool) (layout : Json.Layout) {cfg : Json}
    (distinct : cfg.DistinctKeys) :
    ofFile env onPath (some (Json.dumps layout cfg)) = ⟨env, onPath, .ok cfg⟩ := by
  simp only [ofFile, loadConfig, Json.loads_dumps layout distinct]

/-- Where the balances of the agent are read from. -/
inductive Reconciler where
  | subaccount (backend : InjectiveBackend)
  | wallet (address : String)

/-- The variables that the loop sets before its first iteration. -/
structure LoopSetup where
  env : Environ
  cfg : Json
  universeTokens : List String
  quotes : List String
  backend : Backend
  mode : String
  slippageBps : ℤ
  reconciler : Option Reconciler
  seedNav : ℚ

/-- What the outside answers during one iteration. -/
structure IterationInput where
  world : World
  market : Except PyError (List TokenView × ℚ)
  services : Services
  clock : ℚ
  stateClock : ℚ
  syncClock : ℚ
  execLogFails : Bool

/-- What an iteration does, in order. -/
inductive LiveEvent where
  | reconciled (state : State)
  | ticked
  | wrote (state : State)
  | sent (decision : Decision) (amountUsd : ℚ) (cid : String)

namespace Live

/-- The keys of the configuration that the loop itself reads. -/
def readLoopConfig (cfg : Json) : Except PyError (ℤ × List String × List String) := do
  let slippage ← index (← index cfg "risk") "default_slippage_bps"
  let _ ← index (← index cfg "loop") "tick_seconds"
  let universeTokens ← index cfg "universe"
  let quotes ← index cfg "quote_tokens"
  match slippage, Read.asList Read.asString universeTokens, Read.asList Read.asString quotes with
  | .num (.int slippageBps), some universeTokens, some quotes => .ok (slippageBps, universeTokens, quotes)
  | _, _, _ => .error .typeError

def isLive (chosen : String) : Prop := chosen = "twak" ∨ chosen = "maria" ∨ chosen = "injective"

instance (chosen : String) : Decidable (isLive chosen) :=
  inferInstanceAs (Decidable (_ ∨ _ ∨ _))

/-- The endpoints of `_rpc_pool`; a pool without endpoints raises. -/
def rpcEndpoints (env : Environ) : List (List Char) :=
  let urls := env.text "BSC_RPC" ("https://bsc-dataseed.binance.org," ++
    "https://bsc-dataseed1.defibit.io,https://rpc.ankr.com/bsc")
  ((urls.toList.splitOn ',').map Py.strip).filter (· ≠ [])

/-- Where the balances are read from, if anywhere. -/
def reconcilerOf (env : Environ) (backend : Backend) : Except PyError (Option Reconciler) :=
  let wallet := env.text "AGENT_WALLET_ADDRESS" ""
  match backend with
  | .injective backend => .ok (if backend.dryRun then none else some (.subaccount backend))
  | _ =>
      if isLive (chosenBackend env) ∧ wallet ≠ "" then
        if rpcEndpoints env = [] then .error (.raised "at least one RPC endpoint is required")
        else .ok (some (.wallet wallet))
      else .ok none

/-- The variables of the loop, before it loads its state. -/
def setup (deployment : Deployment) : Except PyError LoopSetup := do
  let env := deployment.env
  let cfg ← deployment.config
  let mode := if isLive (chosenBackend env) then "live" else "mock"
  let backend ← makeBackend env deployment.onPath mode
  let (slippageBps, universeTokens, quotes) ← readLoopConfig cfg
  let reconciler ← reconcilerOf env backend
  let seedNav ← env.floatLiteral "START_NAV"
    (if chosenBackend env = "injective" then "0" else "500")
  return {
    env := env
    cfg := cfg
    universeTokens := universeTokens
    quotes := quotes
    backend := backend
    mode := mode
    slippageBps := slippageBps
    reconciler := reconciler
    seedNav := seedNav }

/-- Seeds the high-water mark of a state that has none. -/
def seedHighWater (setup : LoopSetup) (state : State) : State :=
  if state.highWaterMark.getD 0 = 0 ∧ 0 < setup.seedNav then
    { state with highWaterMark := some setup.seedNav }
  else state

/-- The variables and the state of the loop before its first iteration. -/
def start (deployment : Deployment) (disk : Option State) : Except PyError (LoopSetup × State) := do
  let setup ← setup deployment
  return (setup, seedHighWater setup (PersistentState.load disk))

section

variable (setup : LoopSetup) (input : IterationInput)

def reconcileWith (price : Dict String ℚ) (state : State) : Reconciler → Option State
  | .subaccount backend =>
      syncStateFromInjective state backend setup.env input.services.chain price setup.universeTokens
        (some setup.quotes) input.syncClock
  | .wallet address =>
      syncStateFromChain state input.services.balanceOf address price setup.universeTokens
        (some setup.quotes) input.syncClock

/-- A state without cash and positions starts with the seed when nothing is reconciled. -/
def coldStart (state : State) : State :=
  if state.stableUsd.getD 0 = 0 ∧ state.positions.entries = [] then
    { state with stableUsd := some setup.seedNav }
  else state

/-- The state that the iteration decides on, with the effects so far; nothing when the balances
cannot be read. -/
def reconcile (price : Dict String ℚ) (state : State) : Option (List LiveEvent × State) :=
  match setup.reconciler with
  | none => some ([], coldStart setup state)
  | some reconciler =>
      (reconcileWith setup input price state reconciler).map fun state =>
        ([.reconciled state], state)

def executor : Executor :=
  ⟨setup.backend.toExecutionBackend setup.env input.services, setup.mode, setup.slippageBps⟩

/-- The arguments of the decision tick. -/
def tickInput (market : List TokenView × ℚ) : TickInput where
  executor := some (executor setup input)
  cfg := some setup.cfg
  nowTs := none
  market := some market
  fetch := fun _ => .error .osError
  persist := some (.ok ())
  clock := input.clock
  stateClock := input.stateClock
  execLogFails := input.execLogFails

/-- What a tick on a state does to the snapshot and to the executor. -/
def tickEvents (state : State) (fx : Effects) : List LiveEvent :=
  fx.outward.filterMap fun
    | .intentPersisted pending =>
        some (.wrote { state with intentSeq := pending.seq, pendingIntent := some pending })
    | .orderSent decision amount cid => some (.sent decision amount cid)
    | _ => none

/-- The high-water mark after a tick. -/
def raiseHighWater (state : State) : State :=
  let nav := state.nav.getD 0
  let old := state.highWaterMark.getD nav
  { state with highWaterMark := some (max (if old = 0 then nav else old) nav) }

/-- The state that is written at the end of a tick. -/
def endOfTick (price : Dict String ℚ) (state : State) : State :=
  raiseHighWater (markNav state price).2

/-- What an iteration does from its decision tick on, given how the tick ended. -/
def afterTick (price : Dict String ℚ) (state : State) (fx : Effects) :
    Except PyError (TickResult × State) → List LiveEvent × Except PyError State
  | .error e => (.ticked :: tickEvents state fx, .error e)
  | .ok (_, next) =>
      let next := endOfTick price next
      (.ticked :: tickEvents state fx ++ [.wrote next], .ok next)

/-- The decision tick of an iteration, and the snapshot after it. -/
def decideOn (market : List TokenView × ℚ) (state : State) :
    List LiveEvent × Except PyError State :=
  let ticked := Core.tick input.world state (tickInput setup input market)
  afterTick (priceMap market.1) state ticked.1 ticked.2

/-- One iteration: what it does in order, and the state of the loop after it. -/
def iteration (state : State) : List LiveEvent × Except PyError State :=
  match input.market with
  | .error e => ([], .error e)
  | .ok market =>
      match reconcile setup input (priceMap market.1) state with
      | none => ([.wrote state], .ok state)
      | some (reads, state) =>
          let state := (markNav state (priceMap market.1)).2
          if state.pendingIntent.isSome then
            let cleared := { state with pendingIntent := none }
            (reads ++ [.wrote cleared], .ok cleared)
          else
            let decided := decideOn setup input market state
            (reads ++ decided.1, decided.2)

end

end Live

end SumplusTrader
