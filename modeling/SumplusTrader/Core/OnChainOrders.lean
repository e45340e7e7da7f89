import SumplusTrader.Contracts.EventLog
import SumplusTrader.Core.PublicVerifier
import SumplusTrader.Core.UnknownOutcome

/-!
# Orders from the receipt to the event log

This file joins the three levels of an order: the tick that decides and appends a receipt, the
backend that sizes and signs a call, and the contract that the call runs. A chain runs a
contract when a transaction that is mined succeeds exactly when the contract returns, and the
events of its receipt are those that the contract has kept.

`executed_iff_placed` says that a tick reports an order as executed exactly when the contract
has kept one event for it. The event then carries the cid of the receipt, the receipt lets the
trade through under the hash of the committed policy, and the execution log binds the hash of
the order on the exchange to that receipt.
-/

namespace SumplusTrader

/-- The arguments that a signed call passes to the contract. -/
def OrderCall.args (call : OrderCall) : SpotExecutor.OrderArgs where
  marketID := call.marketId
  subaccountID := call.subaccount
  feeRecipient := call.feeRecipient
  price := BitVec.ofInt 256 call.price
  quantity := BitVec.ofInt 256 call.quantity
  cid := call.cid
  orderType := call.orderType

/-- A deployed contract as the transactions of a wallet meet it. -/
structure DeployedExecutor where
  executor : SpotExecutor.Address
  owner : SpotExecutor.Address
  wallet : SpotExecutor.Address
  exchange : SpotExecutor.Exchange

/-- The contract run on a signed call. -/
def DeployedExecutor.run (deployment : DeployedExecutor) (call : OrderCall) : SpotExecutor.Effects :=
  SpotExecutor.step deployment.executor deployment.owner
    ⟨deployment.wallet, 0, .placeSpotMarketOrder call.args, deployment.exchange⟩

/-- The `orderHash` of a `SpotMarketOrderPlaced` event. -/
def SpotExecutor.Event.placedHash? : SpotExecutor.Event → Option String
  | .spotMarketOrderPlaced orderHash _ _ _ _ _ => some orderHash
  | _ => none

/-- A number that the ABI encodes as a `uint256`. -/
def FitsWord (n : ℤ) : Prop := 0 ≤ n ∧ n < 2 ^ 256

instance (n : ℤ) : Decidable (FitsWord n) := inferInstanceAs (Decidable (_ ∧ _))

/-- The transactions of a chain are calls of the deployed contract. -/
structure InjectiveChain.Runs (chain : InjectiveChain) (deployment : DeployedExecutor) : Prop where
  encodes : ∀ call, chain.sign call = .ok () → FitsWord call.price ∧ FitsWord call.quantity
  mined : ∀ call txHash receipt, chain.sendRawTransaction call = .ok txHash →
    chain.waitForTransactionReceipt txHash = .ok receipt →
    (receipt.status = 1 ↔ ∃ returned, (deployment.run call).result = .ok returned)
  decoded : ∀ call txHash receipt placed, chain.sendRawTransaction call = .ok txHash →
    chain.waitForTransactionReceipt txHash = .ok receipt → receipt.placed = .ok placed →
    placed = ((deployment.run call).events.filterMap SpotExecutor.Event.placedHash?).map some

/-- A guarded request returns exactly when the precompile does, and then keeps its event. -/
theorem SpotExecutor.tryExchange_returns_iff (name : String) (owner : Address)
    (exchange : Exchange) (request : Request) (returned : request.Response → Event × Returned) :
    (∃ value, (tryExchange name owner exchange request returned).result = .ok value) ↔
      ∃ value, exchange request = .returns value ∧
        (tryExchange name owner exchange request returned).events = [(returned value).1] := by
  unfold tryExchange
  split
  · next value answered => simp [answered]
  · next reason answered => simp [answered, revert]
  · next answered => simp [answered, revert]

/-- The contract returns from a market order exactly when it is the owner's and the exchange
answers it, and it then keeps the event of the order and nothing else. -/
theorem DeployedExecutor.run_returns_iff (deployment : DeployedExecutor) (call : OrderCall) :
    (∃ value, (deployment.run call).result = .ok value) ↔
      deployment.wallet = deployment.owner ∧ ∃ resp,
        deployment.exchange (.createSpotMarketOrder deployment.executor call.args.order) =
          .returns resp ∧
        (deployment.run call).events = [.spotMarketOrderPlaced resp.orderHash call.marketId
          call.orderType (BitVec.ofInt 256 call.price) (BitVec.ofInt 256 call.quantity)
          call.cid] := by
  have accepts : (0 : SpotExecutor.Uint256) = 0 ∨
      (SpotExecutor.Entry.placeSpotMarketOrder call.args).payable = true := .inl rfl
  rw [DeployedExecutor.run, SpotExecutor.step, if_pos accepts, SpotExecutor.dispatch]
  by_cases owned : deployment.wallet = deployment.owner
  · rw [owned, SpotExecutor.onlyOwner_self, SpotExecutor.placeSpotMarketOrder,
      SpotExecutor.tryExchange_returns_iff]
    exact (and_iff_right rfl).symm
  · rw [SpotExecutor.onlyOwner_of_ne owned]
    simp [SpotExecutor.revert, owned]

theorem toNat_ofInt {n : ℤ} (fits : FitsWord n) : ((BitVec.ofInt 256 n).toNat : ℤ) = n := by
  rw [BitVec.toNat_ofInt, Int.toNat_of_nonneg (Int.emod_nonneg _ (by norm_num))]
  exact Int.emod_eq_of_lt fits.1 (by exact_mod_cast fits.2)

/-- A request that the backend has sized, signed and sent, with the receipt of its
transaction. -/
structure InjectiveBackend.Delivers (backend : InjectiveBackend) (env : Environ)
    (indexer : Indexer) (chain : InjectiveChain) (request : SwapRequest) (order : SpotOrder)
    (call : OrderCall) (txHash : String) (receipt : TransactionReceipt) : Prop where
  sized : backend.spotOrder env indexer request = .ok order
  large : ¬order.sizing.amountUsd < order.minNotional
  broadcasts : backend.dryRun = false
  signed : backend.signedCall env chain order.market order.plan.orderType
    order.sizing.priceUfixed order.sizing.quantityUfixed order.cid = .ok call
  sent : chain.sendRawTransaction call = .ok txHash
  arrived : chain.waitForTransactionReceipt txHash = .ok receipt

section Backend

variable {backend : InjectiveBackend} {env : Environ} {indexer : Indexer} {chain : InjectiveChain}
  {request : SwapRequest} {order : InjectiveBackend.SpotOrder} {call : OrderCall}
  {txHash : String} {receipt : TransactionReceipt}

/-- What a signed call carries. -/
theorem InjectiveBackend.signedCall_eq_ok {marketId orderType cid : String} {price quantity : ℤ}
    (signed : backend.signedCall env chain marketId orderType price quantity cid = .ok call) :
    call.marketId = marketId ∧ call.orderType = orderType ∧ call.price = price ∧
      call.quantity = quantity ∧ call.cid = cid ∧ chain.sign call = .ok () := by
  simp only [signedCall, bind_eq_ok_iff, pure, Except.pure, Except.ok.injEq] at signed
  rcases signed with ⟨_, -, _, -, _, -, _, -, _, signed, rfl⟩
  exact ⟨rfl, rfl, rfl, rfl, rfl, signed⟩

/-- A delivered order whose transaction succeeded is reported as placed. -/
theorem InjectiveBackend.Delivers.swap_eq
    (delivers : backend.Delivers env indexer chain request order call txHash receipt)
    (success : receipt.status = 1) :
    (backend.swap env indexer chain request).2 = .ok (placedResult order.sizing order.market
      order.plan order.cid txHash (readOrderHash receipt)) := by
  simp [swap, place, sendOrder, delivers.sized, delivers.large, delivers.broadcasts,
    delivers.signed, delivers.sent, delivers.arrived, success]

/-- The backend reports an order as executed only when it was delivered and succeeded. -/
theorem InjectiveBackend.exists_delivers {result : ExecutionResult}
    (answered : (backend.swap env indexer chain request).2 = .ok result)
    (executed : result.executed = true) :
    ∃ order call txHash receipt,
      backend.Delivers env indexer chain request order call txHash receipt ∧
        receipt.status = 1 ∧ txHash ≠ "" := by
  rcases sized : backend.spotOrder env indexer request with e | order
  · simp [swap, sized] at answered
  · simp only [swap, sized, Except.ok.injEq, place] at answered
    by_cases small : order.sizing.amountUsd < order.minNotional
    · rw [if_pos small] at answered
      simp [← answered, skippedResult] at executed
    · by_cases dry : backend.dryRun = true
      · rw [if_neg small, if_pos dry] at answered
        simp [← answered, dryRunResult] at executed
      · rw [if_neg small, if_neg dry] at answered
        simp only [sendOrder] at answered
        rcases signed : backend.signedCall env chain order.market order.plan.orderType
          order.sizing.priceUfixed order.sizing.quantityUfixed order.cid with e | call
        · simp [signed, failedResult, ← answered] at executed
        · rcases sent : chain.sendRawTransaction call with e | txHash
          · simp [signed, sent, failedResult, ← answered] at executed
          · rcases arrived : chain.waitForTransactionReceipt txHash with e | receipt
            · simp [signed, sent, arrived, failedResult, ← answered] at executed
            · by_cases success : receipt.status = 1
              · simp [signed, sent, arrived, success, placedResult, ← answered] at executed
                exact ⟨order, call, txHash, receipt,
                  ⟨sized, small, by simpa using dry, signed, sent, arrived⟩, success, executed⟩
              · simp [signed, sent, arrived, success, failedResult, ← answered] at executed

end Backend

/-- What an append writes, and the receipt that it returns. -/
theorem ReceiptChain.append_eq_ok {log log' : List Char} {args : ReceiptArgs} {r : Receipt}
    (appended : ReceiptChain.append log args = .ok (log', r)) :
    ∃ seq prev, r = receiptOf seq prev args ∧ log' = Json.appendLine log r.toDict := by
  rcases bind_eq_ok_iff.1 appended with ⟨⟨seq, prev⟩, -, appended⟩
  cases prev with
  | str prev =>
      simp only [pure, Except.pure, Except.ok.injEq, Prod.mk.injEq] at appended
      rcases appended with ⟨rfl, rfl⟩
      exact ⟨seq, prev, rfl, rfl⟩
  | null | bool | num | arr | obj => cases appended

theorem receiptCid_ne_empty (bytes : List UInt8) : receiptCid (prefixedHash bytes) ≠ "" := by
  have length := length_prefixedHash bytes
  have digits : afterColon (prefixedHash bytes).toList = (sha256Hex bytes).toList := by
    simp [afterColon, prefixedHash]
  intro empty
  have none := congrArg (fun text => text.toList.length) empty
  simp [prefixedHash] at length
  simp [receiptCid, digits, cidHexLen, length] at none

namespace Core

section Settled

variable {world : World} {state newState : State} {input : TickInput} {executor : Executor}
  {fx : Effects} {result : TickResult} {j : Judgement} {receipt : Receipt}

/-- A tick that has sent its order and has read the answer. -/
structure Settled (world : World) (state : State) (input : TickInput) (executor : Executor)
    (fx : Effects) (result : TickResult) (ph : String) (j : Judgement) (receipt : Receipt)
    (answer : ExecutionResult) : Prop where
  prepared : prepare world.configFile state input = .ok (ph, j)
  appended : ∃ log, ReceiptChain.append world.receipts (receiptArgs ph j) = .ok (log, receipt)
  approved : j.approved
  stages : input.persist = some (.ok ())
  answered : executor.execute j.decision j.verdict.finalAmountUsd (receiptCid receipt.hash) =
    .ok answer
  ended : result = tickResult j receipt answer.executed
  logged : isInjective answer.detail.tree = .ok true → input.execLogFails = false →
    fx.world.executions = ExecLog.recordExecution world.executions
      (ExecLog.executionRecord receipt.seq receipt.hash (receiptCid receipt.hash)
        (Py.isoText j.nowTs) answer.executed answer.detail.tree answer.error)

/-- An order of the Injective backend is logged, unless the append fails. -/
theorem placeOrder_logged {before after : Effects} {fails : Bool} {answer : ExecutionResult}
    (placed : placeOrder before executor j receipt fails = (after, .ok answer)) :
    executor.execute j.decision j.verdict.finalAmountUsd (receiptCid receipt.hash) = .ok answer ∧
      (isInjective answer.detail.tree = .ok true → fails = false →
        after.world.executions = ExecLog.recordExecution before.world.executions
          (ExecLog.executionRecord receipt.seq receipt.hash (receiptCid receipt.hash)
            (Py.isoText j.nowTs) answer.executed answer.detail.tree answer.error)) := by
  rcases andThen_eq_ok placed with ⟨sent, answer', sends, continues⟩
  rcases andThen_eq_ok continues with ⟨logged, _, logs, ended⟩
  simp only [Prod.mk.injEq, Except.ok.injEq] at ended
  rcases ended with ⟨rfl, rfl⟩
  rw [sendOrder, Prod.mk.injEq] at sends
  rcases sends with ⟨rfl, answered⟩
  refine ⟨answered, ?_⟩
  intro injective works
  rw [logExecution, injective, works] at logs
  simp only [Bool.false_eq_true, if_false, Prod.mk.injEq] at logs
  rw [← logs.1]

/-- A live tick that completes has held, or it has settled the one order it had to send. -/
theorem tick_settled (live : input.executor = some executor) (sends : ¬executor.simulates)
    (persists : input.persist.isSome)
    (ticked : tick world state input = (fx, .ok (result, newState))) :
    (result.executed = false ∧ ∀ j cid, ¬Orders world state input j cid) ∨
      ∃ ph j receipt answer, Settled world state input executor fx result ph j receipt answer := by
  rcases tick_cases world state input with ⟨e, raised⟩ |
    ⟨ph, j, log, receipt, prepared, appended, acts⟩
  · simp [raised] at ticked
  · rw [acts] at ticked
    rcases andThen_eq_ok ticked with ⟨after, ⟨executed, carriedState⟩, carried, ended⟩
    simp only [Prod.mk.injEq, Except.ok.injEq] at ended
    rcases ended with ⟨rfl, rfl, rfl⟩
    by_cases approved : j.approved
    · right
      rw [carryOut_live _ _ _ live sends approved] at carried
      rcases persist : input.persist with _ | e | done
      · simp [persist] at persists
      · simp [persist] at carried
      · rw [persist] at carried
        rcases andThen_eq_ok carried with ⟨placed, answer, places, ended⟩
        simp only [Prod.mk.injEq, Except.ok.injEq] at ended
        rcases ended with ⟨rfl, rfl, rfl⟩
        rcases placeOrder_logged places with ⟨answered, logged⟩
        refine ⟨ph, j, receipt, answer, ⟨prepared, ⟨log, appended⟩, approved, persist, answered,
          rfl, ?_⟩⟩
        intro injective works
        rw [markAbstentions, logged injective works, stagedEffects, bookAbstention_executions]
    · left
      have idle : carryOut (bookAbstention ⟨{ world with receipts := log },
          [.receiptAppended receipt]⟩ j) state input j receipt =
            (bookAbstention ⟨{ world with receipts := log }, [.receiptAppended receipt]⟩ j,
              .ok (false, { state with pendingIntent := none })) := if_pos approved
      rw [idle] at carried
      simp only [Prod.mk.injEq, Except.ok.injEq] at carried
      refine ⟨carried.2.1.symm, ?_⟩
      intro j' cid orders
      rcases (orders_iff prepared appended).1 orders with ⟨rfl, -, approved', -⟩
      exact approved approved'

end Settled

/-- An executed order as its receipt, the event of the contract and the execution log show it. -/
structure PlacedOrder (world : World) (input : TickInput) (deployment : DeployedExecutor)
    (fx : Effects) (result : TickResult) (receipt : Receipt)
    (order : InjectiveBackend.SpotOrder) (txHash orderHash : String) : Prop where
  receipted : .receiptAppended receipt ∈ fx.events ∧ result.receiptHash = receipt.hash
  committed : ∃ ph, committedPolicyHash world.configFile = .ok ph ∧ receipt.policyHash = .str ph
  authorised : receipt.isTrade = true ∧ receipt.decision = result.decision.toJson
  planned : InjectiveMarket.classifySwap result.decision.fromToken result.decision.toToken =
    .ok order.plan
  owned : deployment.wallet = deployment.owner
  kept : ∃ call price quantity, (deployment.run call).events = [.spotMarketOrderPlaced orderHash
      order.market order.plan.orderType price quantity (receiptCid receipt.hash)] ∧
    (price.toNat : ℤ) = order.sizing.priceUfixed ∧
    (quantity.toNat : ℤ) = order.sizing.quantityUfixed
  logged : input.execLogFails = false → ∃ record,
    fx.world.executions = ExecLog.recordExecution world.executions record ∧
      record.receiptHash = receipt.hash ∧ record.cid = receiptCid receipt.hash ∧
      record.executed = true ∧ record.market = .str order.market ∧
      record.orderType = .str order.plan.orderType ∧ record.tx = .str txHash ∧
      record.orderHash ∈ [.str orderHash, .str ""]

section Placed

variable {world : World} {state newState : State} {input : TickInput}
  {backend : InjectiveBackend} {env : Environ} {indexer : Indexer} {chain : InjectiveChain}
  {deployment : DeployedExecutor} {fx : Effects} {result : TickResult} {request : SwapRequest}
  {order : InjectiveBackend.SpotOrder} {call : OrderCall} {txHash : String}
  {transaction : TransactionReceipt}

/-- The order of a request is planned from its tokens, and carries its cid when it has one. -/
theorem spotOrder_eq_ok {cid : String} (given : request.cid = some cid) (nonempty : cid ≠ "")
    (sized : backend.spotOrder env indexer request = .ok order) :
    InjectiveMarket.classifySwap request.fromToken request.toToken = .ok order.plan ∧
      order.cid = cid := by
  simp only [InjectiveBackend.spotOrder, InjectiveBackend.sized, bind_eq_ok_iff, pure,
    Except.pure, Except.ok.injEq] at sized
  rcases sized with ⟨⟨plan, sizing⟩, ⟨_, planned, _, -, same⟩, _, -, _, -, rfl⟩
  rw [Prod.mk.injEq] at same
  refine ⟨same.1 ▸ planned, ?_⟩
  simp [given, nonempty]

/-- The hash that the backend reads from a receipt is that of the event, or is missing. -/
theorem readOrderHash_of_runs (runs : chain.Runs deployment)
    (sent : chain.sendRawTransaction call = .ok txHash)
    (arrived : chain.waitForTransactionReceipt txHash = .ok transaction)
    {orderHash marketID orderType cid : String} {price quantity : SpotExecutor.Uint256}
    (kept : (deployment.run call).events =
      [.spotMarketOrderPlaced orderHash marketID orderType price quantity cid]) :
    InjectiveBackend.readOrderHash transaction ∈ [orderHash, ""] := by
  rcases decodes : transaction.placed with e | placed
  · simp [InjectiveBackend.readOrderHash, decodes]
  · have events := runs.decoded call txHash transaction placed sent arrived decodes
    rw [kept] at events
    simp [InjectiveBackend.readOrderHash, decodes, events, SpotExecutor.Event.placedHash?]

theorem isInjective_placedResult (sizing : Sizing) (market : String) (plan : InjectiveMarket.SwapPlan)
    (cid txHash orderHash : String) :
    isInjective (InjectiveBackend.placedResult sizing market plan cid txHash orderHash).detail.tree =
      .ok true := by
  simp [InjectiveBackend.placedResult, InjectiveBackend.detailOf, isInjective, Json.truthy,
    Json.get?, isStr]

/-- The hash of a receipt gives a cid, so the backend takes it. -/
theorem request_cid {log log' : List Char} {args : ReceiptArgs} {receipt : Receipt}
    (appended : ReceiptChain.append log args = .ok (log', receipt)) (slippageBps : ℤ)
    (decision : Decision) (amount : ℚ) :
    receiptCid receipt.hash ≠ "" ∧
      (((LiveBackend.injective backend env indexer chain).executor slippageBps).request decision
        amount (receiptCid receipt.hash)).cid = some (receiptCid receipt.hash) := by
  rcases ReceiptChain.append_eq_ok appended with ⟨seq, prev, rfl, -⟩
  have nonempty : receiptCid (ReceiptChain.receiptOf seq prev args).hash ≠ "" :=
    receiptCid_ne_empty _
  refine ⟨nonempty, ?_⟩
  simp [Executor.request, nonempty, LiveBackend.executor, LiveBackend.toExecutionBackend,
    InjectiveBackend.toExecutionBackend]

/-- A settled order that was delivered and succeeded shows on all three levels. -/
theorem placedOrder_of_delivers {slippageBps : ℤ} {ph : String} {j : Judgement}
    {receipt : Receipt} {answer : ExecutionResult} (runs : chain.Runs deployment)
    (ticked : tick world state input = (fx, .ok (result, newState)))
    (settled : Settled world state input
      ((LiveBackend.injective backend env indexer chain).executor slippageBps) fx result ph j
      receipt answer)
    (delivers : backend.Delivers env indexer chain
      (((LiveBackend.injective backend env indexer chain).executor slippageBps).request j.decision
        j.verdict.finalAmountUsd (receiptCid receipt.hash)) order call txHash transaction)
    (success : transaction.status = 1) (named : txHash ≠ "")
    (answered : answer = InjectiveBackend.placedResult order.sizing order.market order.plan
      order.cid txHash (InjectiveBackend.readOrderHash transaction)) :
    ∃ orderHash, PlacedOrder world input deployment fx result receipt order txHash orderHash := by
  rcases settled.appended with ⟨log, appended⟩
  rcases request_cid appended slippageBps j.decision j.verdict.finalAmountUsd with ⟨nonempty, cid⟩
  rcases spotOrder_eq_ok cid nonempty delivers.sized with ⟨planned, carried⟩
  rcases InjectiveBackend.signedCall_eq_ok delivers.signed with
    ⟨market, orderType, price, quantity, cid, signed⟩
  have returns := (runs.mined call txHash transaction delivers.sent delivers.arrived).1 success
  rcases (deployment.run_returns_iff call).1 returns with ⟨owned, resp, -, kept⟩
  have fits := runs.encodes call signed
  have logged := settled.logged
  rw [answered] at logged
  have decision : result.decision = j.decision := by rw [settled.ended]; rfl
  have hash : result.receiptHash = receipt.hash := by rw [settled.ended]; rfl
  rcases ReceiptChain.append_eq_ok appended with ⟨seq, prev, written, -⟩
  rcases prepare_eq_ok_iff.1 settled.prepared with ⟨_, _, _, _, -, committed, -⟩
  refine ⟨resp.orderHash, ?_⟩
  exact {
    receipted := by
      refine ⟨?_, hash⟩
      have acts := tick_of_prepare settled.prepared appended
      rw [acts] at ticked
      rcases (act_extends _ state input j receipt).events with ⟨later, events, -⟩
      rw [ticked] at events
      rw [events]
      exact List.mem_cons_self
    committed := ⟨ph, committed, by rw [written]; rfl⟩
    authorised := by
      rw [Receipt.isTrade, decision, written]
      exact ⟨isTradeVerdict_of_approved settled.prepared settled.approved, rfl⟩
    planned := by rw [decision]; exact planned
    owned := owned
    kept := by
      refine ⟨call, BitVec.ofInt 256 call.price, BitVec.ofInt 256 call.quantity, ?_, ?_, ?_⟩
      · rw [kept, market, orderType, cid, carried]
      · rw [toNat_ofInt fits.1, price]
      · rw [toNat_ofInt fits.2, quantity]
    logged := by
      intro works
      have read := readOrderHash_of_runs runs delivers.sent delivers.arrived kept
      refine ⟨_, logged (isInjective_placedResult _ _ _ _ _ _) works, rfl, rfl, ?_, rfl, rfl, rfl,
        ?_⟩
      · simpa [InjectiveBackend.placedResult, ExecLog.executionRecord] using named
      · simpa [ExecLog.executionRecord, ExecLog.getOrNull, InjectiveBackend.placedResult,
          InjectiveBackend.detailOf, Json.get?, List.lookup_cons] using read }

/-- **Executed means placed.** A live tick over the Injective backend that completes reports its
order as executed exactly when the order was delivered and the contract returned from it; the
contract has then kept one event for the order, which the receipt authorises and the execution
log binds to that receipt. -/
theorem executed_iff_placed (world : World) (state : State) (input : TickInput)
    (backend : InjectiveBackend) (env : Environ) (indexer : Indexer) (chain : InjectiveChain)
    (slippageBps : ℤ) (deployment : DeployedExecutor) (runs : chain.Runs deployment)
    (deployed : input.executor =
      some ((LiveBackend.injective backend env indexer chain).executor slippageBps))
    (persists : input.persist.isSome) {fx : Effects} {result : TickResult} {newState : State}
    (ticked : tick world state input = (fx, .ok (result, newState))) :
    (result.executed = true ↔ ∃ j cid order call txHash transaction,
        Orders world state input j cid ∧
        backend.Delivers env indexer chain
          (((LiveBackend.injective backend env indexer chain).executor slippageBps).request
            j.decision j.verdict.finalAmountUsd cid) order call txHash transaction ∧
        txHash ≠ "" ∧ ∃ value, (deployment.run call).result = .ok value) ∧
      (result.executed = true → ∃ receipt order txHash orderHash,
        PlacedOrder world input deployment fx result receipt order txHash orderHash) := by
  rcases tick_settled deployed (not_simulates_executor _ slippageBps) persists ticked with
    ⟨idle, none⟩ | ⟨ph, j, receipt, answer, settled⟩
  · rw [idle]
    refine ⟨⟨by simp, ?_⟩, by simp⟩
    rintro ⟨j, cid, -, -, -, -, orders, -⟩
    exact absurd orders (none j cid)
  · have answered := settled.answered
    rw [execute_executor] at answered
    have executed : result.executed = answer.executed := by rw [settled.ended]; rfl
    have orders : Orders world state input j (receiptCid receipt.hash) := by
      rcases settled.appended with ⟨log, appended⟩
      exact (orders_iff settled.prepared appended).2 ⟨rfl, rfl, settled.approved, settled.stages⟩
    have through : answer.executed = true → ∃ order call txHash transaction,
        backend.Delivers env indexer chain
          (((LiveBackend.injective backend env indexer chain).executor slippageBps).request
            j.decision j.verdict.finalAmountUsd (receiptCid receipt.hash)) order call txHash
            transaction ∧ transaction.status = 1 ∧ txHash ≠ "" :=
      InjectiveBackend.exists_delivers answered
    rw [executed]
    refine ⟨⟨?_, ?_⟩, ?_⟩
    · intro done
      rcases through done with ⟨order, call, txHash, transaction, delivers, success, named⟩
      exact ⟨j, _, order, call, txHash, transaction, orders, delivers, named,
        (runs.mined call txHash transaction delivers.sent delivers.arrived).1 success⟩
    · rintro ⟨j', cid', order, call, txHash, transaction, orders', delivers, named, returns⟩
      rcases orders.unique orders' with ⟨rfl, rfl⟩
      have success :=
        (runs.mined call txHash transaction delivers.sent delivers.arrived).2 returns
      have placed := delivers.swap_eq success
      have same := Except.ok.inj (answered.symm.trans placed)
      simpa [same, InjectiveBackend.placedResult] using named
    · intro done
      rcases through done with ⟨order, call, txHash, transaction, delivers, success, named⟩
      have placed := delivers.swap_eq success
      rcases placedOrder_of_delivers runs ticked settled delivers success named
        (Except.ok.inj (answered.symm.trans placed)) with ⟨orderHash, order⟩
      exact ⟨receipt, _, txHash, orderHash, order⟩

end Placed

/-- An exchange that takes everything and fills orders at their price. -/
def fillingExchange : SpotExecutor.Exchange
  | .deposit _ _ _ _ => .returns true
  | .withdraw _ _ _ _ => .returns true
  | .subaccountDeposit _ _ => .returns (0, 0)
  | .createSpotMarketOrder _ order =>
      .returns ⟨"0x02", order.cid, order.quantity, order.price, 0⟩
  | .createSpotLimitOrder _ order => .returns ⟨"0x02", order.cid⟩

/-- The contract on that exchange, in the hands of its owner. -/
def ownedExecutor : DeployedExecutor := ⟨0xE, 0xA, 0xA, fillingExchange⟩

/-- A chain that mines the calls of that contract. -/
def contractChain : InjectiveChain :=
  { ExitSetting.executingChain with
    sign := fun call =>
      if FitsWord call.price ∧ FitsWord call.quantity then .ok ()
      else .error (.raised "value out of bounds") }

theorem contractChain_runs : contractChain.Runs ownedExecutor where
  encodes := by
    intro call signed
    by_contra unfit
    simp [contractChain, unfit] at signed
  mined := by
    intro call txHash receipt _ arrived
    have mined : receipt = ⟨1, .ok [some "0x02"]⟩ := (Except.ok.inj arrived).symm
    rw [mined, ownedExecutor.run_returns_iff call]
    exact ⟨fun _ => ⟨rfl, _, rfl, rfl⟩, fun _ => rfl⟩
  decoded := by
    intro call txHash receipt placed _ arrived decodes
    have mined : receipt = ⟨1, .ok [some "0x02"]⟩ := (Except.ok.inj arrived).symm
    rw [mined, Except.ok.injEq] at decodes
    rw [← decodes]
    rfl

def contractEntry : LiveBackend := injectiveBackend contractChain

theorem executed_iff_placed_entry : ∃ fx result newState,
    tick bareWorld entryState (entryInput contractEntry) = (fx, .ok (result, newState)) ∧
      ∃ receipt order txHash orderHash, PlacedOrder bareWorld (entryInput contractEntry)
        ownedExecutor fx result receipt order txHash orderHash := by
  have executes : (tick bareWorld entryState (entryInput contractEntry)).2.toOption.map
      (fun ended => ended.1.executed) = some true := by
    decide +kernel
  rw [Option.map_eq_some_iff] at executes
  rcases executes with ⟨⟨result, newState⟩, ended, executed⟩
  rw [toOption_eq_some_iff] at ended
  have ticked : tick bareWorld entryState (entryInput contractEntry) =
      ((tick bareWorld entryState (entryInput contractEntry)).1, .ok (result, newState)) :=
    Prod.ext rfl ended
  exact ⟨_, result, newState, ticked, (executed_iff_placed bareWorld entryState
    (entryInput contractEntry) _ _ _ contractChain 50 ownedExecutor contractChain_runs rfl rfl
    ticked).2 executed⟩

end Core

end SumplusTrader
