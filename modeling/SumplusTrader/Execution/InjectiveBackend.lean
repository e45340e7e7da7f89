import SumplusTrader.Execution.Executor
import SumplusTrader.Execution.InjectiveMarket
import SumplusTrader.Python.Dict

/-!
# The Injective backend

This file models `agent/execution/injective_backend.py`, which turns a swap of a number of
dollars into a spot market order. The amount is divided by the best price of the side of the
book that the order takes, and snapped down to the ticks of the market; orders below the
minimal notional are skipped.

The indexer and the chain are outside of this development: they answer each request with any
value, or raise. An order is handed over once the chain has accepted the signed transaction,
whatever happens while its receipt is awaited. `sendOrder` gives the hash of an accepted
transaction apart from its result.
-/

namespace SumplusTrader

/-- The prices on both sides of a book, as texts; a level may lack its price. -/
structure Orderbook where
  sells : List (Option String)
  buys : List (Option String)

/-- The answers of the indexer: the book of a market at each attempt, and the ticks. -/
structure Indexer where
  orderbook : String → ℕ → Except PyError Orderbook
  ticks : InjectiveMarket.TickSource

/-- The call of the contract that places an order. -/
structure OrderCall where
  marketId : String
  subaccount : String
  feeRecipient : String
  price : ℤ
  quantity : ℤ
  cid : String
  orderType : String
  gas : ℤ
  chainId : ℤ

/-- The receipt of a transaction; the events may fail to decode. -/
structure TransactionReceipt where
  status : ℤ
  placed : Except PyError (List (Option String))

/-- The answers of the chain. `connect` is the construction of the client and its contract,
`sign` the building and signing of a transaction. -/
structure InjectiveChain where
  connect : Except PyError Unit
  sign : OrderCall → Except PyError Unit
  sendRawTransaction : OrderCall → Except PyError String
  waitForTransactionReceipt : String → Except PyError TransactionReceipt
  subaccountBalance : String → String → Except PyError (ℤ × ℤ)

structure InjectiveBackend where
  rpcUrl : String
  executorAddr : String
  pk : String
  feeRecipient : String
  subaccountIndex : ℤ
  refPriceEnv : String
  dryRun : Bool

/-- How an order is sized. -/
structure Sizing where
  refPrice : ℚ
  worstPrice : ℚ
  quantityBase : ℚ
  priceUfixed : ℤ
  quantityUfixed : ℤ
  amountUsd : ℚ

def Sizing.fields (sizing : Sizing) : List (String × Json) :=
  [("ref_price", Py.floatJson sizing.refPrice), ("worst_price", Py.floatJson sizing.worstPrice),
    ("quantity_base", Py.floatJson sizing.quantityBase),
    ("price_ufixed", .num (.int sizing.priceUfixed)),
    ("quantity_ufixed", .num (.int sizing.quantityUfixed)),
    ("amount_usd", Py.floatJson sizing.amountUsd)]

namespace InjectiveBackend

open InjectiveMarket

/-- `InjectiveBackend.__init__`. -/
def ofEnviron (env : Environ) (dryRun : Option Bool) : Except PyError InjectiveBackend := do
  let rpcUrl := env.text "INJ_RPC" ""
  let executorAddr := env.text "INJ_EXECUTOR_ADDRESS" ""
  let pk := env.text "AGENT_WALLET_PRIVATE_KEY" ""
  let subaccountIndex ← env.int "INJ_SUBACCOUNT_INDEX" "1"
  let configured := rpcUrl ≠ "" ∧ executorAddr ≠ "" ∧ pk ≠ ""
  return {
    rpcUrl := rpcUrl
    executorAddr := executorAddr
    pk := pk
    feeRecipient := env.text "INJ_FEE_RECIPIENT" ""
    subaccountIndex := subaccountIndex
    refPriceEnv := env.text "INJ_REF_PRICE_INJ" ""
    dryRun := dryRun.getD (¬configured) }

/-- `_best_price`: the least or the greatest price of one side of the book. -/
def bestPrice (levels : List (Option String)) (wantMin : Bool) (scale : ℚ) :
    Except PyError (Option ℚ) := do
  let prices ← (levels.filterMap id).mapM fun price => do
    return (← decimalOfText price) * scale
  match prices with
  | [] => return none
  | price :: prices => return some (prices.foldl (if wantMin then min else max) price)

/-- The best ask and bid of one answer of the indexer. -/
def topOfBook (scale : ℚ) (book : Orderbook) : Except PyError (Option ℚ × Option ℚ) := do
  let ask ← bestPrice book.sells true scale
  let bid ← bestPrice book.buys false scale
  return (ask, bid)

/-- `_orderbook_top`, which asks the indexer three times. -/
def orderbookTop (indexer : Indexer) (marketId : String) (baseDec quoteDec : ℕ) :
    Except PyError (Option ℚ × Option ℚ) :=
  let scale := (10 : ℚ) ^ ((baseDec : ℤ) - quoteDec)
  let attempt : ℕ → Except PyError (Option ℚ × Option ℚ) := fun n => do
    topOfBook scale (← indexer.orderbook marketId n)
  match attempt 0 with
  | .ok top => .ok top
  | .error _ =>
      match attempt 1 with
      | .ok top => .ok top
      | .error _ => attempt 2

/-- The top of the book of a pair. -/
def bookOfPair (env : Environ) (indexer : Indexer) (base quote : String) :
    Except PyError (Option ℚ × Option ℚ) := do
  let mid ← marketId env base quote
  let (_, baseDec) ← token env base
  let (_, quoteDec) ← token env quote
  orderbookTop indexer mid baseDec quoteDec

/-- The price that an order of a side takes, when the book has a positive one. -/
def bookPrice (env : Environ) (indexer : Indexer) (base quote : String) (side : Side) :
    Except PyError ℚ := do
  let (ask, bid) ← bookOfPair env indexer base quote
  match if side = .buy then ask else bid with
  | none => .error (.raised "empty order book side")
  | some px => if 0 < px then return px else .error (.raised "empty order book side")

/-- `_ref_price`. -/
def refPrice (backend : InjectiveBackend) (env : Environ) (indexer : Indexer)
    (base quote : String) (side : Side) : Except PyError ℚ :=
  match bookPrice env indexer base quote side with
  | .ok px => .ok px
  | .error e =>
      if backend.refPriceEnv ≠ "" then decimalOfText backend.refPriceEnv
      else .error (.raised ("no reference price for " ++ base ++ "/" ++ quote ++ ": " ++ e.text))

/-- `_size`. -/
def size (backend : InjectiveBackend) (env : Environ) (indexer : Indexer) (base quote : String)
    (side : Side) (amountUsd : String) (slippageBps : ℤ) : Except PyError Sizing := do
  let ref ← backend.refPrice env indexer base quote side
  let usd ← decimalOfText amountUsd
  if ref = 0 then .error .zeroDivision
  else
    let slip : ℚ := slippageBps / 10000
    let worst := if side = .buy then ref * (1 + slip) else ref * (1 - slip)
    let (worst, quantityBase) :=
      match marketTicks env indexer.ticks base quote with
      | .ok (priceTick, qtyTick) =>
          (snapToTick worst priceTick (if side = .buy then .up else .down),
            snapToTick (usd / ref) qtyTick .down)
      | .error _ => (worst, usd / ref)
    return {
      refPrice := ref
      worstPrice := worst
      quantityBase := quantityBase
      priceUfixed := toUfixed worst
      quantityUfixed := toUfixed quantityBase
      amountUsd := quantityBase * ref }

/-- The plan and the sizing of a request. -/
def sized (backend : InjectiveBackend) (env : Environ) (indexer : Indexer)
    (request : SwapRequest) : Except PyError (SwapPlan × Sizing) := do
  let plan ← classifySwap request.fromToken request.toToken
  let sizing ← backend.size env indexer plan.base plan.quote plan.side request.amount
    request.slippageBps
  return (plan, sizing)

def getQuote (backend : InjectiveBackend) (env : Environ) (indexer : Indexer)
    (request : SwapRequest) : Except PyError JsonValue := do
  let (plan, sizing) ← backend.sized env indexer request
  return ⟨.obj ([("source", .str "injective"),
    ("chain", .str (if request.chain = "" then "injective" else request.chain)),
    ("market", .str (plan.base ++ "/" ++ plan.quote)), ("side", .str plan.side.text),
    ("slippage_bps", .num (.int request.slippageBps))] ++ sizing.fields), by
    simp [Json.DistinctKeys, Json.DistinctKeysFields, Sizing.fields, Py.floatJson]⟩

/-- `_read_order_hash`; what does not decode counts as no hash. -/
def readOrderHash (receipt : TransactionReceipt) : String :=
  match receipt.placed with
  | .ok (some orderHash :: _) => orderHash
  | _ => ""

/-- The call that places an order, once it is signed. -/
def signedCall (backend : InjectiveBackend) (env : Environ) (chain : InjectiveChain)
    (marketId orderType : String) (priceUfixed quantityUfixed : ℤ) (cid : String) :
    Except PyError OrderCall := do
  chain.connect
  let subaccount ← subaccountId backend.executorAddr backend.subaccountIndex
  let gas ← env.int "INJ_GAS_LIMIT" "2000000"
  let chainId ← chainId env
  let call : OrderCall := {
    marketId := marketId
    subaccount := subaccount
    feeRecipient := backend.feeRecipient
    price := priceUfixed
    quantity := quantityUfixed
    cid := cid
    orderType := orderType
    gas := gas
    chainId := chainId }
  chain.sign call
  return call

/-- `_send_order`: the hash of the transaction that the chain has accepted, and the result. -/
def sendOrder (backend : InjectiveBackend) (env : Environ) (chain : InjectiveChain)
    (marketId orderType : String) (priceUfixed quantityUfixed : ℤ) (cid : String) :
    Option String × Except PyError (String × String) :=
  match backend.signedCall env chain marketId orderType priceUfixed quantityUfixed cid with
  | .error e => (none, .error e)
  | .ok call =>
      match chain.sendRawTransaction call with
      | .error e => (none, .error e)
      | .ok txHash =>
          match chain.waitForTransactionReceipt txHash with
          | .error e => (some txHash, .error e)
          | .ok receipt =>
              if receipt.status ≠ 1 then
                (some txHash, .error (.raised ("order tx reverted: " ++ txHash)))
              else (some txHash, .ok (txHash, readOrderHash receipt))

section Results

variable (sizing : Sizing)

/-- The detail of a result: its own fields and then those of the sizing. -/
def detailOf (fields : List (String × Json)) : Json := .obj (fields ++ sizing.fields)

def skippedResult (dryRun : Bool) (minNotional : ℚ) (cid : String) : ExecutionResult where
  executed := false
  dryRun := dryRun
  detail := ⟨detailOf sizing [("source", .str "injective"), ("skipped", .str "below_min_notional"),
    ("min_notional_usd", Py.floatJson minNotional), ("cid", .str cid)], by
    simp [detailOf, Json.DistinctKeys, Json.DistinctKeysFields, Sizing.fields, Py.floatJson]⟩
  error := none

def dryRunResult (market : String) (plan : SwapPlan) (cid : String) : ExecutionResult where
  executed := false
  dryRun := true
  detail := ⟨detailOf sizing [("source", .str "injective"), ("mode", .str "dry_run"),
    ("would_call", .str "SpotExecutor.placeSpotMarketOrder"), ("market", .str market),
    ("order_type", .str plan.orderType), ("cid", .str cid)], by
    simp [detailOf, Json.DistinctKeys, Json.DistinctKeysFields, Sizing.fields, Py.floatJson]⟩
  error := none

def failedResult (cid : String) (e : PyError) : ExecutionResult where
  executed := false
  dryRun := false
  detail := ⟨detailOf sizing [("source", .str "injective"), ("cid", .str cid)], by
    simp [detailOf, Json.DistinctKeys, Json.DistinctKeysFields, Sizing.fields, Py.floatJson]⟩
  error := some e.text

def placedResult (market : String) (plan : SwapPlan) (cid txHash orderHash : String) :
    ExecutionResult where
  executed := txHash ≠ ""
  dryRun := false
  detail := ⟨detailOf sizing [("source", .str "injective"), ("tx", .str txHash),
    ("order_hash", .str orderHash), ("market", .str market), ("order_type", .str plan.orderType),
    ("cid", .str cid), ("fill", .str "via_reconcile")], by
    simp [detailOf, Json.DistinctKeys, Json.DistinctKeysFields, Sizing.fields, Py.floatJson]⟩
  error := none

end Results

/-- What is known of an order before anything is sent. -/
structure SpotOrder where
  plan : SwapPlan
  sizing : Sizing
  market : String
  minNotional : ℚ
  cid : String

def spotOrder (backend : InjectiveBackend) (env : Environ) (indexer : Indexer)
    (request : SwapRequest) : Except PyError SpotOrder := do
  let (plan, sizing) ← backend.sized env indexer request
  let market ← marketId env plan.base plan.quote
  let minNotional ← minNotionalUsd env
  let given := request.cid.getD ""
  return {
    plan := plan
    sizing := sizing
    market := market
    minNotional := minNotional
    cid := if given = "" then env.text "INJ_CID" "" else given }

/-- Sends an order, unless it is too small or the backend is a dry run: the hash of the
transaction that the chain has accepted, and the result. -/
def place (backend : InjectiveBackend) (env : Environ) (chain : InjectiveChain)
    (order : SpotOrder) : Option String × ExecutionResult :=
  let sizing := order.sizing
  if sizing.amountUsd < order.minNotional then
    (none, skippedResult sizing backend.dryRun order.minNotional order.cid)
  else if backend.dryRun then (none, dryRunResult sizing order.market order.plan order.cid)
  else
    match backend.sendOrder env chain order.market order.plan.orderType sizing.priceUfixed
      sizing.quantityUfixed order.cid with
    | (accepted, .error e) => (accepted, failedResult sizing order.cid e)
    | (accepted, .ok (txHash, orderHash)) =>
        (accepted, placedResult sizing order.market order.plan order.cid txHash orderHash)

/-- `execute_swap`: the hash of the transaction that the chain has accepted, and the
result. -/
def swap (backend : InjectiveBackend) (env : Environ) (indexer : Indexer) (chain : InjectiveChain)
    (request : SwapRequest) : Option String × Except PyError ExecutionResult :=
  match backend.spotOrder env indexer request with
  | .error e => (none, .error e)
  | .ok order => ((backend.place env chain order).1, .ok (backend.place env chain order).2)

def toExecutionBackend (backend : InjectiveBackend) (env : Environ) (indexer : Indexer)
    (chain : InjectiveChain) : ExecutionBackend where
  acceptsCid := true
  getQuote := backend.getQuote env indexer
  executeSwap := fun request => (backend.swap env indexer chain request).2

/-- `read_subaccount_balances`: the available balance of each symbol. -/
def readSubaccountBalances (backend : InjectiveBackend) (env : Environ) (chain : InjectiveChain)
    (symbols : List String) : Except PyError (Dict String ℚ) := do
  chain.connect
  let subaccount ← subaccountId backend.executorAddr backend.subaccountIndex
  symbols.foldlM (fun out sym => do
    let (denom, decimals) ← token env sym
    let (available, _) ← chain.subaccountBalance subaccount denom
    return out.set (Py.upper sym) (fromChainAmount available decimals)) Dict.empty

end InjectiveBackend

end SumplusTrader
