import SumplusTrader.Execution.Executor
import SumplusTrader.Execution.Environ
import SumplusTrader.Json.RoundTrip

/-!
# The wallet backend

This file models `agent/execution/twak_backend.py`, which turns a swap into a call of the
command line tool of a wallet and reads the result from what the tool prints.

The tool is outside of this development: a command fails to start, or it is run and then
completes with any exit code and output, or raises, as on a timeout. Once the command is run
the swap may have been broadcast, whatever comes back. `swap` gives what became of a command
that was run apart from its result.
-/

namespace SumplusTrader

structure CompletedProcess where
  returncode : ℤ
  stdout : List Char
  stderr : List Char

/-- What becomes of a command. -/
inductive CommandRun where
  | notStarted (e : PyError)
  | started (outcome : Except PyError CompletedProcess)

structure TwakBackend where
  chainDefault : String
  dryRun : Bool

namespace TwakBackend

/-- The tool is on the path or not; without it the backend is a dry run. -/
def ofEnviron (onPath : Bool) (dryRun : Option Bool) : TwakBackend where
  chainDefault := "bsc"
  dryRun := dryRun.getD (!onPath)

/-- The addresses of the tokens of each chain. -/
def tokenAddresses : List (String × List (String × String)) :=
  [("bsc",
    [("USDT", "0x55d398326f99059fF775485246999027B3197955"),
      ("USDC", "0x8AC76a51cc950d9822D68b83fE1Ad97B32Cd580d"),
      ("WBNB", "0xbb4CdB9CBd36B01bD1cBaEBF2De08d9173bc095c"),
      ("BTCB", "0x7130d2A12B9BCbFAe4f2634d864A1Ee1Ce3Ead9c"),
      ("ETH", "0x2170Ed0880ac9A755fd29B2688956BD959F933F8"),
      ("CAKE", "0x0E09FaBB73Bd3Ade0a17ECC321fD13a19e81cE82")])]

def resolveToken (chain token : String) : String :=
  if "0x".toList.isPrefixOf token.toList then token
  else (((tokenAddresses.lookup chain).getD []).lookup (Py.upper token)).getD token

/-- `_cmd`. -/
def cmd (bin : String) (quoteOnly : Bool) (chain fromToken toToken amount : String)
    (slippageBps : ℤ) : List String :=
  [bin, "swap", resolveToken chain fromToken, resolveToken chain toToken, "--usd", amount,
    "--chain", chain, "--slippage", Py.generalText (slippageBps / 100), "--json"] ++
    if quoteOnly then ["--quote-only"] else []

def requestCmd (backend : TwakBackend) (env : Environ) (quoteOnly : Bool) (request : SwapRequest) :
    List String :=
  cmd (env.text "TWAK_BIN" "twak") quoteOnly
    (if request.chain = "" then backend.chainDefault else request.chain) request.fromToken
    request.toToken request.amount request.slippageBps

/-- What the tool has printed, as a value; a text that does not parse is kept as it is. -/
def readOutput (stdout : List Char) : JsonValue :=
  match Json.parse stdout with
  | some value => .ofLiteral value
  | none => .ofLiteral (.obj [("raw", .str (String.ofList (Py.strip stdout))),
      ("source", .str "twak")])

/-- `TwakError`. -/
def twakError (process : CompletedProcess) : PyError :=
  let stderr := Py.strip process.stderr
  let said := if stderr = [] then Py.strip process.stdout else stderr
  .raised ("twak error " ++ String.ofList (Json.intText process.returncode) ++ ": " ++
    String.ofList said)

/-- `_run`: the outcome of a command that was run, and what it printed. -/
def run (backend : TwakBackend) (shell : List String → CommandRun) (cmd : List String) :
    Option (Except PyError CompletedProcess) × Except PyError JsonValue :=
  if backend.dryRun then
    (none, .ok (.ofLiteral (.obj [("dry_run", .bool true),
      ("would_run", .str (" ".intercalate cmd)), ("source", .str "twak")])))
  else
    match shell cmd with
    | .notStarted e => (none, .error e)
    | .started (.error e) => (some (.error e), .error e)
    | .started (.ok process) =>
        if process.returncode ≠ 0 then (some (.ok process), .error (twakError process))
        else (some (.ok process), .ok (readOutput process.stdout))

def getQuote (backend : TwakBackend) (env : Environ) (shell : List String → CommandRun)
    (request : SwapRequest) : Except PyError JsonValue :=
  (backend.run shell (backend.requestCmd env true request)).2

/-- The first of some fields that counts as true, else the last one. -/
def firstTruthy (out : Json) : List String → Json
  | [] => .null
  | [key] => (out.get? key).getD .null
  | key :: keys =>
      let value := (out.get? key).getD .null
      if value.truthy then value else firstTruthy out keys

/-- The hash of the broadcast transaction, under any of its names. -/
def broadcastHash (out : Json) : Json := firstTruthy out ["hash", "txHash", "transactionHash"]

def isTruthy (out : Json) (key : String) : Bool := (out.get? key).any Json.truthy

/-- The result of a swap that printed a value. -/
def resultOf (out : JsonValue) : Except PyError ExecutionResult :=
  match out.tree with
  | .obj fields =>
      if isTruthy (.obj fields) "dry_run" then .ok ⟨false, true, out, none⟩
      else
        let tx := broadcastHash (.obj fields)
        .ok ⟨tx.truthy || isTruthy (.obj fields) "executed", false,
          .ofLiteral (.obj ([("tx", tx), ("source", .str "twak")] ++ fields)), none⟩
  | _ => .error .attributeError

/-- `execute_swap`: the outcome of a command that was run, and the result. -/
def swap (backend : TwakBackend) (env : Environ) (shell : List String → CommandRun)
    (request : SwapRequest) :
    Option (Except PyError CompletedProcess) × Except PyError ExecutionResult :=
  match backend.run shell (backend.requestCmd env false request) with
  | (ran, .error e) => (ran, .error e)
  | (ran, .ok out) => (ran, resultOf out)

def toExecutionBackend (backend : TwakBackend) (env : Environ)
    (shell : List String → CommandRun) : ExecutionBackend where
  acceptsCid := false
  getQuote := backend.getQuote env shell
  executeSwap := fun request => (backend.swap env shell request).2

end TwakBackend

end SumplusTrader
