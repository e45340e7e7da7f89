import SumplusTrader.Brain.Chat
import SumplusTrader.Brain.Loop

/-!
# Supervising the loop

This file models the two programs that share the runtime state: `handle` of `agent/chat.py`, which
answers one message, and one iteration of `run_forever` of `agent/loop.py`. Both can run a tick.

A reply holds the data that its text is made of; the text itself is left out. A message or an
iteration that raises keeps the effects it had before. The portfolio is valued by the runtime state
alone, which is what happens when no spot prices are given.
-/

namespace SumplusTrader

/-- What the chat answers. -/
inductive ChatReply where
  | status (paused : Bool) (valueUsd drawdownPct : ℚ) (maxDrawdownPct : Json)
      (recent : List LedgerEntry)
  | portfolioValue (valueUsd : ℚ)
  | why (recent : List LedgerEntry)
  | policy (pairs : List Json) (risk : List (String × Json))
  | paused
  | resumed
  | cycle (steps : List BrainStep)
  | unknownCap (field : String) (known : List String)
  | capSet (field : String) (value : ℚ)
  | commands
  | answer (content : String)

/-- What is outside of the chat: the brain, the backend and the executor that are made for a mode,
and the language model, if there is a key for it. -/
structure ChatOutside where
  make : Json → Except PyError (ℕ → Outside)
  service : Option (Except PyError String)

namespace Chat

/-- Lower case. Of the symbols outside of ASCII, the Kelvin sign alone becomes a letter that a
command is made of. -/
def lowerSymbol (c : Char) : Char := if c.toNat = 8490 then 'k' else Py.lowerChar c

/-- `message.strip().lower()`. -/
def normalized (message : String) : String :=
  String.ofList ((Py.strip message.toList).map lowerSymbol)

def idle (world : BrainWorld) : BrainEffects := ⟨world, [], []⟩

/-- `_recent`. -/
def recent (ledger : List LedgerEntry) (event : String) (n : ℕ) : List LedgerEntry :=
  let out := ledger.filter fun entry => entry.event = event
  out.drop (out.length - n)

/-- `_status`. Taking the snapshot records the value of the portfolio. -/
def status (cfg : Json) (world : BrainWorld) : BrainWorld × Except PyError ChatReply :=
  let value := world.runtime.portfolioValueUsd
  let (portfolio, drawdownPct) := world.portfolio.updateAndDrawdown value
  ({ world with portfolio := portfolio }, do
    let risk ← index cfg "risk"
    let maxDrawdown ← index risk "max_drawdown_pct"
    return .status world.runtime.paused value (Py.roundTo 2 drawdownPct) maxDrawdown
      (recent world.ledger "decision" 3))

/-- `_why`. -/
def why (world : BrainWorld) : ChatReply := .why (recent world.ledger "guardrail" 3)

/-- `_policy`. -/
def policy (cfg : Json) (world : BrainWorld) : Except PyError ChatReply := do
  match ← index cfg "risk" with
  | .obj risk =>
      let pairs ← Loop.allowedPairs cfg
      return .policy pairs (world.runtime.overrides.entries.foldl
        (fun risk override => Json.setField risk override.1 override.2) risk)
  | _ => .error .typeError

/-- The branch of `handle` for a tick; `base` is the configuration of the loop. -/
def runCycle (base : Json) (utcOffset : ℤ) (outside : ChatOutside) (world : BrainWorld) :
    BrainEffects × Except PyError ChatReply :=
  let made := do
    let cfg ← Loop.effectiveCfg base world.runtime.overrides
    outside.make ((cfg.get? "mode").getD (.str "mock"))
  match made with
  | .error e => (idle world, .error e)
  | .ok pairs =>
      let (fx, ran) := Loop.tick base utcOffset pairs world.runtime.portfolioValueUsd world
      (fx, ran.map fun _ => .cycle fx.steps)

/-- The names of the caps of a configuration. -/
def knownCaps (cfg : Json) : List String :=
  match cfg.get? "risk" with
  | some (.obj risk) => risk.map Prod.fst
  | _ => []

/-- The branch of `handle` for a cap, on the field and the value of the message. -/
def storeCap (cfg : Json) (world : BrainWorld) (msg : String) (field value : List Char) :
    BrainEffects × Except PyError ChatReply :=
  match setCap cfg world.runtime msg with
  | .error e => (idle world, .error e)
  | .ok runtime =>
      (idle { world with runtime := runtime }, do
        let value ← floatOf value
        let field := String.ofList field
        return if field ∈ knownCaps cfg then .capSet field value
          else .unknownCap field (knownCaps cfg))

/-- `_freeform`. The context of a question takes the status and the policy. -/
def freeform (cfg : Json) (outside : ChatOutside) (world : BrainWorld) :
    BrainEffects × Except PyError ChatReply :=
  match outside.service with
  | none => (idle world, .ok .commands)
  | some answer =>
      let (world, described) := status cfg world
      (idle world, do
        let _ ← described
        let _ ← policy cfg world
        return .answer (← answer))

/-- `handle`. -/
def handle (cfg base : Json) (utcOffset : ℤ) (outside : ChatOutside) (world : BrainWorld)
    (message : String) : BrainEffects × Except PyError ChatReply :=
  let msg := normalized message
  if msg = "status" ∨ msg = "how are you" ∨ msg = "how are you doing" then
    let (world, reply) := status cfg world
    (idle world, reply)
  else if msg = "positions" ∨ msg = "portfolio" then
    (idle world, .ok (.portfolioValue world.runtime.portfolioValueUsd))
  else if "why".toList <+: msg.toList ∨ "explain".toList <+: msg.toList then
    (idle world, .ok (why world))
  else if msg = "policy" ∨ msg = "limits" ∨ msg = "caps" then (idle world, policy cfg world)
  else if msg = "pause" then
    (idle { world with runtime := { world.runtime with paused := true } }, .ok .paused)
  else if msg = "resume" then
    (idle { world with runtime := { world.runtime with paused := false } }, .ok .resumed)
  else if msg = "tick" then runCycle base utcOffset outside world
  else
    match capMessage? msg.toList with
    | some (field, value) => storeCap cfg world msg field value
    | none => freeform cfg outside world

end Chat

namespace Loop

/-- One iteration of `run_forever`; `now` is the time of its own record. -/
def iterate (base : Json) (utcOffset : ℤ) (outside : ℕ → Outside) (now : ℚ) (world : BrainWorld) :
    BrainEffects :=
  if world.runtime.paused then (Chat.idle world).record now "paused" []
  else
    match tick base utcOffset outside world.runtime.portfolioValueUsd world with
    | (fx, .ok ()) => fx
    | (fx, .error e) => fx.record now "tick_error" [("error", .str e.text)]

end Loop

end SumplusTrader
