import SumplusTrader.Brain.Guardrail
import SumplusTrader.Brain.Runtime
import SumplusTrader.Execution.Executor

/-!
# The tick of the brain loop

This file models `tick` of `agent/loop.py`. For every allowed pair on an enabled chain
the brain proposes a decision, the guardrail checks it, and an allowed trade goes to the
executor, with the amount that the guardrail clamped it to or else with the proposed one.
The configuration is the base configuration with the overrides of the runtime state.

The snapshot, the brain, the executor and the clock are outside of the loop. They may
answer differently for every pair, and `Outside` holds their answers for one of them. A
tick that raises keeps the effects it had.
-/

namespace SumplusTrader

/-- What the outside answers while one pair is processed. The readings of the clock are
those for the three records and for the count of the last hour. -/
structure Outside where
  snapshot : Json → Except PyError Json
  brain : Json → Json → Except PyError Decision
  executor : Executor
  decidedAt : ℚ
  checkedAt : ℚ
  judgedAt : ℚ
  executedAt : ℚ

/-- An entry of the result of a tick. -/
structure BrainStep where
  decision : Decision
  verdict : String
  allowed : Bool
  execution : Option JsonValue

/-- The world, the calls of the executor and the steps so far. -/
structure BrainEffects where
  world : BrainWorld
  calls : List (Decision × ℚ)
  steps : List BrainStep

def BrainEffects.record (fx : BrainEffects) (now : ℚ) (event : String)
    (payload : List (String × Json)) : BrainEffects :=
  { fx with world := { fx.world with ledger := Ledger.record fx.world.ledger now event payload } }

namespace Loop

/-- One override, which is dropped unless the risk section has its key. -/
def applyOverride (cfg : Json) (override : String × Json) : Except PyError Json := do
  match cfg, ← index cfg "risk" with
  | .obj fields, .obj risk =>
      if override.1 ∈ risk.map Prod.fst then
        let risk := Json.setField risk override.1 override.2
        return .obj (Json.setField fields "risk" (.obj risk))
      else return cfg
  | _, _ => .error .typeError

/-- `_effective_cfg`. -/
def effectiveCfg (base : Json) (overrides : Dict String Json) : Except PyError Json :=
  overrides.entries.foldlM applyOverride base

/-- `_policy_summary`. -/
def policySummary (cfg : Json) : Except PyError Json := do
  let pairs ← index cfg "allowed_pairs"
  let tokens ← index cfg "allowed_tokens"
  let risk ← index cfg "risk"
  let maxSingle ← index risk "max_single_trade_usd"
  let maxDrawdown ← index risk "max_drawdown_pct"
  return .obj [("allowed_pairs", pairs), ("allowed_tokens", tokens),
    ("max_single_trade_usd", maxSingle), ("max_drawdown_pct", maxDrawdown)]

/-- The names of the enabled entries. -/
def enabledNames : List (String × Json) → Except PyError (List String)
  | [] => .ok []
  | (name, .obj fields) :: entries => do
      let names ← enabledNames entries
      return if ((Json.obj fields).get? "enabled").any Json.truthy then name :: names else names
  | _ :: _ => .error .attributeError

def enabledChains (cfg : Json) : Except PyError (List String) := do
  match ← index cfg "chains" with
  | .obj entries => enabledNames entries
  | _ => .error .attributeError

def allowedPairs (cfg : Json) : Except PyError (List Json) := do
  match ← index cfg "allowed_pairs" with
  | .arr pairs => return pairs
  | _ => .error .typeError

/-- The pair is on an enabled chain. -/
def onEnabledChain (enabled : List String) (pair : Json) : Except PyError Bool := do
  match ← index pair "chain" with
  | .str chain => return chain ∈ enabled
  | _ => return false

/-- `verdict.clamped_amount_usd or decision.amount_usd`. -/
def executedAmount (verdict : GuardrailVerdict) (decision : Decision) : ℚ :=
  match verdict.clampedAmountUsd with
  | none => decision.amountUsd
  | some amount => if amount = 0 then decision.amountUsd else amount

/-- Hands an allowed trade to the executor. -/
def carryOut (fx : BrainEffects) (outside : Outside) (decision : Decision)
    (verdict : GuardrailVerdict) : BrainEffects × Except PyError Unit :=
  let step : BrainStep := ⟨decision, verdict.reason, verdict.allowed, none⟩
  if verdict.allowed ∧ decision.isTrade then
    let amount := executedAmount verdict decision
    let called := { fx with calls := fx.calls ++ [(decision, amount)] }
    match outside.executor.execute decision amount "" with
    | .error e => (called, .error e)
    | .ok result =>
        let event := if result.executed then "executed" else "execute_attempt"
        let logged := called.record outside.executedAt event
          [("amount_usd", Py.floatJson amount), ("result", result.detail.tree),
            ("error", (result.error.map Json.str).getD .null)]
        ({ logged with steps := logged.steps ++ [{ step with execution := some result.detail }] },
          .ok ())
  else ({ fx with steps := fx.steps ++ [step] }, .ok ())

/-- The values that a tick has computed before it comes to the pairs. -/
structure TickContext where
  cfg : Json
  guard : Guardrail
  portfolioValueUsd : ℚ
  drawdownPct : ℚ
  utcOffset : ℤ

/-- Checks a decision of the brain and carries it out. -/
def judge (ctx : TickContext) (fx : BrainEffects) (outside : Outside) (decision : Decision) :
    BrainEffects × Except PyError Unit :=
  let decided := fx.record outside.decidedAt "decision" [("decision", decision.toJson)]
  let trades := Ledger.tradesLastHour decided.world.ledger outside.checkedAt ctx.utcOffset
  match ctx.guard.check decision ctx.portfolioValueUsd ctx.drawdownPct trades with
  | .error e => (decided, .error e)
  | .ok verdict =>
      let judged := decided.record outside.judgedAt "guardrail"
        [("decision", decision.toJson), ("allowed", .bool verdict.allowed),
          ("reason", .str verdict.reason)]
      carryOut judged outside decision verdict

/-- The decision of the brain on a pair. -/
def propose (ctx : TickContext) (outside : Outside) (pair : Json) : Except PyError Decision := do
  let snapshot ← outside.snapshot pair
  let summary ← policySummary ctx.cfg
  outside.brain snapshot summary

def processPair (ctx : TickContext) (enabled : List String) (fx : BrainEffects)
    (outside : Outside) (pair : Json) : BrainEffects × Except PyError Unit :=
  match onEnabledChain enabled pair with
  | .error e => (fx, .error e)
  | .ok false => (fx, .ok ())
  | .ok true =>
      match propose ctx outside pair with
      | .error e => (fx, .error e)
      | .ok decision => judge ctx fx outside decision

/-- The pairs one after the other, until one of them raises. -/
def processPairs (ctx : TickContext) (enabled : List String) :
    BrainEffects → (ℕ → Outside) → List Json → BrainEffects × Except PyError Unit
  | fx, _, [] => (fx, .ok ())
  | fx, outside, pair :: pairs =>
      match processPair ctx enabled fx (outside 0) pair with
      | (fx, .error e) => (fx, .error e)
      | (fx, .ok ()) => processPairs ctx enabled fx (fun n => outside (n + 1)) pairs

/-- The effective configuration and the guardrail for it. -/
def setUp (base : Json) (overrides : Dict String Json) : Except PyError (Json × Guardrail) := do
  let cfg ← effectiveCfg base overrides
  let guard ← Guardrail.ofCfg cfg
  return (cfg, guard)

/-- The enabled chains and the pairs. -/
def schedule (cfg : Json) : Except PyError (List String × List Json) := do
  let enabled ← enabledChains cfg
  let pairs ← allowedPairs cfg
  return (enabled, pairs)

def tick (base : Json) (utcOffset : ℤ) (outside : ℕ → Outside) (portfolioValueUsd : ℚ)
    (world : BrainWorld) : BrainEffects × Except PyError Unit :=
  match setUp base world.runtime.overrides with
  | .error e => (⟨world, [], []⟩, .error e)
  | .ok (cfg, guard) =>
      let (portfolio, drawdownPct) := world.portfolio.updateAndDrawdown portfolioValueUsd
      let fx : BrainEffects := ⟨{ world with portfolio := portfolio }, [], []⟩
      match schedule cfg with
      | .error e => (fx, .error e)
      | .ok (enabled, pairs) =>
          processPairs ⟨cfg, guard, portfolioValueUsd, drawdownPct, utcOffset⟩ enabled fx outside
            pairs

end Loop

end SumplusTrader
