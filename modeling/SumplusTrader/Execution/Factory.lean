import SumplusTrader.Execution.InjectiveBackend
import SumplusTrader.Execution.TwakBackend

/-!
# Choosing a backend

This file models `agent/execution/factory.py` and the mock backend of
`agent/execution/mock_backend.py`. The environment names the backend; the mode decides only
when it does not.

Importing the Injective backend reads two numbers from the environment, and the client of the
hosted backend needs a variable to be set, so that choosing one of them can raise. What the
hosted backend answers is outside of this development.
-/

namespace SumplusTrader

namespace MockBackend

/-- `_REF_USD`. -/
def refUsd : List (String × ℚ) :=
  [("USDC", 1), ("USDT", 1), ("MNT", 0.80), ("WMNT", 0.80), ("BNB", 600), ("WBNB", 600)]

/-- The fields of a quote, with its chain. -/
def quote (request : SwapRequest) (amountIn : ℚ) : List (String × Json) :=
  let fromPrice := (refUsd.lookup (Py.upper request.fromToken)).getD 1
  let toPrice := (refUsd.lookup (Py.upper request.toToken)).getD 1
  let amountOut := amountIn * fromPrice / toPrice * (1 - request.slippageBps / 10000)
  [("from_token", .str request.fromToken), ("to_token", .str request.toToken),
    ("amount_in", Py.floatJson amountIn), ("amount_out", Py.floatJson (Py.roundTo 6 amountOut)),
    ("price_usd", Py.floatJson toPrice), ("slippage_bps", .num (.int request.slippageBps)),
    ("source", .str "mock"), ("chain", .str request.chain)]

theorem distinctKeys_quote (request : SwapRequest) (amountIn : ℚ) :
    (Json.obj (quote request amountIn)).DistinctKeys := by
  simp [quote, Json.DistinctKeys, Json.DistinctKeysFields, Py.floatJson]

def getQuote (request : SwapRequest) : Except PyError JsonValue := do
  let amountIn ← floatOfText request.amount
  return ⟨.obj (quote request amountIn), distinctKeys_quote request amountIn⟩

def executeSwap (request : SwapRequest) : Except PyError ExecutionResult := do
  let amountIn ← floatOfText request.amount
  return {
    executed := false
    dryRun := true
    detail := ⟨.obj [("mode", .str "mock"), ("would_send", .obj (quote request amountIn)),
      ("tx_hash", .null)], by
      simpa [Json.DistinctKeys, Json.DistinctKeysFields] using distinctKeys_quote request amountIn⟩
    error := none }

def toExecutionBackend : ExecutionBackend where
  acceptsCid := false
  getQuote := getQuote
  executeSwap := executeSwap

end MockBackend

/-- The services that the backends and the loop reach, as they answer at one time. -/
structure Services where
  shell : List String → CommandRun
  indexer : Indexer
  chain : InjectiveChain
  maria : ExecutionBackend
  balanceOf : String → String → Except PyError ℤ

inductive Backend where
  | mock
  | twak (backend : TwakBackend)
  | injective (backend : InjectiveBackend)
  | maria

/-- `EXECUTION_BACKEND`, in lower case. -/
def chosenBackend (env : Environ) : String := Py.lower (env.text "EXECUTION_BACKEND" "")

/-- The constructor of the client of the hosted backend. -/
def makeMaria (env : Environ) : Except PyError Backend :=
  match env "MARIA_BASE_URL" with
  | none => .error (.keyError "MARIA_BASE_URL")
  | some _ => .ok .maria

def makeInjective (env : Environ) : Except PyError Backend := do
  let _ ← InjectiveMarket.chainId env
  let _ ← InjectiveMarket.minNotionalUsd env
  return .injective (← InjectiveBackend.ofEnviron env none)

/-- `make_backend`; `onPath` says that the wallet tool is installed. -/
def makeBackend (env : Environ) (onPath : Bool) (mode : String) : Except PyError Backend :=
  if chosenBackend env = "twak" then .ok (.twak (.ofEnviron onPath none))
  else if chosenBackend env = "injective" then makeInjective env
  else if chosenBackend env = "mock" ∨ mode = "mock" then .ok .mock
  else if chosenBackend env = "maria" ∨ env.text "MARIA_BASE_URL" "" ≠ "" then makeMaria env
  else .ok .mock

namespace Backend

def toExecutionBackend (env : Environ) (services : Services) : Backend → ExecutionBackend
  | mock => MockBackend.toExecutionBackend
  | twak backend => backend.toExecutionBackend env services.shell
  | injective backend => backend.toExecutionBackend env services.indexer services.chain
  | maria => services.maria

/-- A backend that sends what it is given: a hosted one, or one that is not a dry run. -/
def sends : Backend → Prop
  | mock => False
  | twak backend => backend.dryRun = false
  | injective backend => backend.dryRun = false
  | maria => True

end Backend

end SumplusTrader
