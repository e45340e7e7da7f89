import Mathlib.Data.List.Perm.Subperm
import SumplusTrader.Core.CrashPoints
import SumplusTrader.Core.OnChainOrders

/-!
# From the receipts to the exchange

This file follows the orders of a process over its whole life to the event log of the contract. An
order call that the backend hands over waits in the network, which runs it at some time or drops
it. Anyone may call the contract in between, and the process may die between any two effects.

`Trail` is the invariant of the runs: what waits and what the contract has logged are among the
orders that the process has sent, one for one, and each of them is backed by a receipt.
-/

namespace SumplusTrader

/-- The call that `execute_swap` hands to the node, whatever the node answers. -/
def InjectiveBackend.handedCall (backend : InjectiveBackend) (env : Environ) (indexer : Indexer)
    (chain : InjectiveChain) (request : SwapRequest) : Option OrderCall :=
  match backend.spotOrder env indexer request with
  | .error _ => none
  | .ok order =>
      if order.sizing.amountUsd < order.minNotional ∨ backend.dryRun then none
      else (backend.signedCall env chain order.market order.plan.orderType
        order.sizing.priceUfixed order.sizing.quantityUfixed order.cid).toOption

/-- A handed call carries the cid of its request, and the plan of its tokens. -/
theorem InjectiveBackend.handedCall_spec {backend : InjectiveBackend} {env : Environ}
    {indexer : Indexer} {chain : InjectiveChain} {request : SwapRequest} {call : OrderCall}
    {cid : String} (given : request.cid = some cid) (nonempty : cid ≠ "")
    (handed : backend.handedCall env indexer chain request = some call) :
    call.cid = cid ∧ ∃ plan, InjectiveMarket.classifySwap request.fromToken request.toToken =
      .ok plan ∧ call.orderType = plan.orderType := by
  rcases sized : backend.spotOrder env indexer request with e | order
  · simp [handedCall, sized] at handed
  · rw [handedCall, sized] at handed
    dsimp only at handed
    split at handed
    · cases handed
    · rcases signedCall_eq_ok (toOption_eq_some_iff.1 handed) with ⟨-, orderType, -, -, named, -⟩
      rcases Core.spotOrder_eq_ok given nonempty sized with ⟨planned, carried⟩
      exact ⟨named.trans carried, order.plan, planned, orderType⟩

namespace SpotExecutor

/-- An entry that places an order or gives the contract away. -/
def Entry.trades : Entry → Bool
  | .placeSpotMarketOrder _ | .placeSpotLimitOrder _ | .transferOwnership _ => true
  | _ => false

variable {owner : Address} {call : Call}

theorem ownerAfter_concat (executor owner : Address) (calls : List Call) (call : Call) :
    ownerAfter executor owner (calls ++ [call]) =
      (step executor (ownerAfter executor owner calls) call).owner := by
  rw [ownerAfter, List.foldl_append]
  rfl

theorem emittedEvents_concat (executor owner : Address) (calls : List Call) (call : Call) :
    emittedEvents executor owner (calls ++ [call]) = emittedEvents executor owner calls ++
      (step executor (ownerAfter executor owner calls) call).events := by
  induction calls generalizing owner with
  | nil =>
      rw [List.nil_append, emittedEvents_cons]
      simp [emittedEvents, trace, ownerAfter]
  | cons first calls ih =>
      rw [List.cons_append, emittedEvents_cons, emittedEvents_cons, ih, List.append_assoc]
      rfl

/-- A market order of the owner is logged as it was called for, if it is logged at all. -/
theorem step_marketOrder (executor owner : Address) (args : OrderArgs) (exchange : Exchange) :
    (step executor owner ⟨owner, 0, .placeSpotMarketOrder args, exchange⟩).owner = owner ∧
      ∃ logged, (step executor owner ⟨owner, 0, .placeSpotMarketOrder args,
          exchange⟩).events.filterMap Event.order? = Option.toList logged ∧
        ∀ order ∈ logged, order.resting = false ∧ order.cid = args.cid ∧
          order.orderType = args.orderType := by
  have accepts : (0 : Uint256) = 0 ∨ (Entry.placeSpotMarketOrder args).payable = true := .inl rfl
  rw [step, if_pos accepts, dispatch, onlyOwner_self, placeSpotMarketOrder, owner_tryExchange,
    tryExchange_filterMap]
  refine ⟨rfl, _, rfl, ?_⟩
  intro order logged
  rw [Option.mem_def, Option.bind_eq_some_iff] at logged
  rcases logged with ⟨resp, -, placed⟩
  cases placed
  exact ⟨rfl, rfl, rfl⟩

/-- A call of someone else, or one that does not trade, adds no order. -/
theorem step_quiet (executor : Address)
    (quiet : call.sender ≠ owner ∨ call.entry.trades = false) :
    (step executor owner call).owner = owner ∧
      (step executor owner call).events.filterMap Event.order? = [] := by
  by_cases inside : call.sender = owner
  · have tame := quiet.resolve_left (not_not.2 inside)
    by_cases accepts : call.value = 0 ∨ call.entry.payable
    · rw [step, if_pos accepts, inside]
      revert tame
      cases call.entry with
      | receive | exchange | owner => exact fun _ => ⟨rfl, rfl⟩
      | deposit account coin amount =>
          intro _
          rw [dispatch, onlyOwner_self, deposit, owner_tryExchange, tryExchange_filterMap]
          exact ⟨rfl, by cases (call.exchange _).value? <;> rfl⟩
      | withdraw account coin amount =>
          intro _
          rw [dispatch, onlyOwner_self, withdraw, owner_tryExchange, tryExchange_filterMap]
          exact ⟨rfl, by cases (call.exchange _).value? <;> rfl⟩
      | subaccountBalance account coin =>
          intro _
          rw [dispatch, owner_subaccountBalance, (subaccountBalance_effects _ _ _ _).1]
          exact ⟨rfl, rfl⟩
      | transferOwnership | placeSpotMarketOrder | placeSpotLimitOrder =>
          intro tame
          cases tame
    · rw [step, if_neg accepts]
      exact ⟨rfl, rfl⟩
  · have idle := idle_of_outside executor ⟨owner, call⟩ inside
    have events : (step executor owner call).events = [] := idle.events
    exact ⟨idle.owner, by rw [events]; rfl⟩

end SpotExecutor

/-- The process with its logs, the order calls that wait in the network, and the calls that the
contract has run. -/
structure Trading where
  recorder : Recorder
  waiting : List OrderCall
  calls : List SpotExecutor.Call

/-- The backend, and what answers it while it places an order. -/
structure Venue where
  backend : InjectiveBackend
  env : Environ
  indexer : Indexer
  chain : InjectiveChain
  slippageBps : ℤ

def Venue.live (venue : Venue) : LiveBackend :=
  .injective venue.backend venue.env venue.indexer venue.chain

/-- The call that an executor of the backend hands over. -/
def Venue.handedCall (venue : Venue) (decision : Decision) (amountUsd : ℚ) (cid : String) :
    Option OrderCall :=
  venue.backend.handedCall venue.env venue.indexer venue.chain
    ((venue.live.executor venue.slippageBps).request decision amountUsd cid)

/-- The actions of the process and the network. In `process` nothing is handed over, also when an
order is performed: it has come to nothing in the backend. -/
inductive Trading.Action where
  | process (action : Recorder.Action)
  | hand (venue : Venue)
  | run (index : ℕ) (exchange : SpotExecutor.Exchange)
  | drop (index : ℕ)
  | call (call : SpotExecutor.Call)

namespace Core

open SpotExecutor (Address OrderEntry)

/-- A step, when the key of the process is that of `wallet`. -/
def trade (wallet : Address) (trading : Trading) :
    Trading.Action → Option (Trading × List Event)
  | .process action =>
      (record trading.recorder action).map fun moved =>
        ({ trading with recorder := moved.1 }, moved.2)
  | .hand venue =>
      match trading.recorder.todo with
      | .orderSent decision amountUsd cid :: _ =>
          -- the call waits whatever the node has answered: it may have arrived all the same
          (venue.handedCall decision amountUsd cid).bind fun call =>
            (record trading.recorder .perform).map fun moved =>
              (⟨moved.1, call :: trading.waiting, trading.calls⟩, moved.2)
      | _ => none
  | .run index exchange =>
      trading.waiting[index]?.map fun call =>
        ({ trading with
          waiting := trading.waiting.eraseIdx index
          calls := trading.calls ++ [⟨wallet, 0, .placeSpotMarketOrder call.args, exchange⟩] }, [])
  | .drop index => some ({ trading with waiting := trading.waiting.eraseIdx index }, [])
  | .call call => some ({ trading with calls := trading.calls ++ [call] }, [])

/-- Every tick finds the same configuration file, and the key signs no other call that trades. -/
def soleTrader (wallet : Address) (configFile : Option String) (trading : Trading) :
    Trading.Action → Bool
  | .process action => underFile configFile trading.recorder action
  | .call call => call.sender ≠ wallet ∨ call.entry.trades = false
  | _ => true

/-- The orders that the event log of the contract shows. -/
def placedOrders (executor wallet : Address) (calls : List SpotExecutor.Call) : List OrderEntry :=
  (SpotExecutor.eventLog executor wallet calls).filterMap SpotExecutor.Event.order?

/-- A receipt lets a trade through, and an order has its cid and the direction of its decision. -/
def Backed (receipts : List Receipt) (cid orderType : String) : Prop :=
  ∃ receipt ∈ receipts, receipt.isTrade = true ∧ cid = receiptCid receipt.hash ∧
    ∃ (decision : Decision) (plan : InjectiveMarket.SwapPlan),
      receipt.decision = decision.toJson ∧
        InjectiveMarket.classifySwap decision.fromToken decision.toToken = .ok plan ∧
        orderType = plan.orderType

/-- What holds after a history: the contract is still the wallet's, the orders that are logged or
wait are among those sent, one for one, and they are backed. -/
structure Trail (executor wallet : Address) (history : List Event) (trading : Trading) : Prop where
  owner : SpotExecutor.ownerAfter executor wallet trading.calls = wallet
  sent : ((placedOrders executor wallet trading.calls).map OrderEntry.cid ++
    trading.waiting.map OrderCall.cid).Subperm (sentCids history)
  waiting : ∀ call ∈ trading.waiting, Backed (receiptsOf history) call.cid call.orderType
  placed : ∀ order ∈ placedOrders executor wallet trading.calls,
    order.resting = false ∧ Backed (receiptsOf history) order.cid order.orderType

section Steps

variable {executor wallet : Address} {hash : String} {configFile : Option String}
  {history events : List Event} {trading next : Trading} {action : Trading.Action}
  {receipts : List Receipt} {cid orderType : String}

/-- What one more call adds to the orders of the log. -/
theorem placedOrders_concat (executor wallet : Address) (calls : List SpotExecutor.Call)
    (call : SpotExecutor.Call) :
    placedOrders executor wallet (calls ++ [call]) = placedOrders executor wallet calls ++
      (SpotExecutor.step executor (SpotExecutor.ownerAfter executor wallet calls)
        call).events.filterMap SpotExecutor.Event.order? := by
  have deployed : (SpotExecutor.deploy wallet).owner = wallet := rfl
  rw [placedOrders, placedOrders, SpotExecutor.eventLog, SpotExecutor.eventLog, deployed,
    SpotExecutor.emittedEvents_concat, ← List.append_assoc, List.filterMap_append]

theorem Backed.append (more : List Receipt) (backed : Backed receipts cid orderType) :
    Backed (receipts ++ more) cid orderType := by
  rcases backed with ⟨receipt, mem, rest⟩
  exact ⟨receipt, List.mem_append_left _ mem, rest⟩

theorem receiptsOf_append (history events : List Event) :
    receiptsOf (history ++ events) = receiptsOf history ++ receiptsOf events :=
  List.filterMap_append

theorem sentCids_append (history events : List Event) :
    sentCids (history ++ events) = sentCids history ++ sentCids events :=
  List.filterMap_append

/-- The receipts of an audited log have client ids. -/
theorem Audited.receiptCid_ne_empty {world : World} (audited : Audited hash history world)
    {receipt : Receipt} (mem : receipt ∈ receiptsOf history) : receiptCid receipt.hash ≠ "" := by
  have hashed := audited.bound.chain.chained.hash_eq (List.mem_map_of_mem mem)
  have links : receipt.hash = computeHash receipt.prevHash receipt.toReceiptBody := hashed
  rw [links]
  exact SumplusTrader.receiptCid_ne_empty _

/-- What the network and the contract hold is kept while the process goes on. -/
theorem Trail.extend (trail : Trail executor wallet history trading) (recorder : Recorder)
    (events : List Event) :
    Trail executor wallet (history ++ events) { trading with recorder := recorder } := by
  refine ⟨trail.owner, ?_, ?_, ?_⟩
  · rw [sentCids_append]
    exact trail.sent.trans (List.sublist_append_left _ _).subperm
  · intro call mem
    rw [receiptsOf_append]
    exact (trail.waiting call mem).append _
  · intro order mem
    rw [receiptsOf_append]
    exact ⟨(trail.placed order mem).1, (trail.placed order mem).2.append _⟩

/-- Calls may leave the network without being run. -/
theorem Trail.drop (trail : Trail executor wallet history trading) (index : ℕ) :
    Trail executor wallet history
      { trading with waiting := trading.waiting.eraseIdx index } where
  owner := trail.owner
  sent := by
    have fewer := (List.eraseIdx_sublist trading.waiting index).map OrderCall.cid
    exact (((List.Sublist.refl _).append fewer).subperm).trans trail.sent
  waiting := fun call mem => trail.waiting call (List.mem_of_mem_eraseIdx mem)
  placed := trail.placed

/-- The network takes over a backed call of an order that has just been sent. -/
theorem Trail.hand (trail : Trail executor wallet history trading) (recorder : Recorder)
    (decision : Decision) (amountUsd : ℚ) {call : OrderCall}
    (backed : Backed (receiptsOf history) call.cid call.orderType) :
    Trail executor wallet (history ++ [.orderSent decision amountUsd call.cid])
      ⟨recorder, call :: trading.waiting, trading.calls⟩ where
  owner := trail.owner
  sent := by
    have sent : sentCids (history ++ [.orderSent decision amountUsd call.cid]) =
        sentCids history ++ [call.cid] := sentCids_concat _ _
    rw [sent, List.map_cons]
    -- the new cid stands in front of the waiting calls and at the end of what was sent
    refine List.perm_middle.subperm.trans ?_
    refine ((List.subperm_cons call.cid).2 trail.sent).trans ?_
    exact (List.perm_append_singleton _ _).symm.subperm
  waiting := by
    rw [List.forall_mem_cons]
    refine ⟨?_, (trail.extend recorder _).waiting⟩
    rw [receiptsOf_append]
    exact backed.append _
  placed := (trail.extend recorder _).placed

/-- The client id of a waiting call goes over to the order that the contract logs for it. -/
theorem cids_eraseIdx {waiting : List OrderCall} {index : ℕ} {call : OrderCall}
    (found : waiting[index]? = some call) {logged : Option OrderEntry}
    (same : ∀ order ∈ logged, order.cid = call.cid) :
    (logged.toList.map OrderEntry.cid ++ (waiting.eraseIdx index).map OrderCall.cid).Subperm
      (waiting.map OrderCall.cid) := by
  cases logged with
  | none => exact ((List.eraseIdx_sublist waiting index).map OrderCall.cid).subperm
  | some order =>
      rcases List.getElem?_eq_some_iff.1 found with ⟨bound, rfl⟩
      have moved := (List.getElem_cons_eraseIdx_perm bound).map OrderCall.cid
      rw [Option.toList_some, List.map_singleton, same order rfl]
      exact moved.subperm

/-- The contract runs one of the calls that wait. -/
theorem Trail.run (trail : Trail executor wallet history trading) {index : ℕ} {call : OrderCall}
    (found : trading.waiting[index]? = some call) (exchange : SpotExecutor.Exchange) :
    Trail executor wallet history
      { trading with
        waiting := trading.waiting.eraseIdx index
        calls := trading.calls ++ [⟨wallet, 0, .placeSpotMarketOrder call.args, exchange⟩] } := by
  rcases SpotExecutor.step_marketOrder executor wallet call.args exchange with
    ⟨owner, logged, orders, same⟩
  have placed : placedOrders executor wallet
      (trading.calls ++ [⟨wallet, 0, .placeSpotMarketOrder call.args, exchange⟩]) =
        placedOrders executor wallet trading.calls ++ logged.toList := by
    rw [placedOrders_concat, trail.owner, orders]
  have mem : call ∈ trading.waiting := List.mem_of_getElem? found
  refine ⟨?_, ?_, (trail.drop index).waiting, ?_⟩
  · rw [SpotExecutor.ownerAfter_concat, trail.owner, owner]
  · dsimp only
    rw [placed, List.map_append, List.append_assoc]
    have fewer := cids_eraseIdx found fun order logs => (same order logs).2.1
    exact ((List.subperm_append_left _).2 fewer).trans trail.sent
  · dsimp only
    rw [placed]
    intro order logs
    rcases List.mem_append.1 logs with earlier | new
    · exact trail.placed order earlier
    · rcases same order (Option.mem_toList.1 new) with ⟨market, cid, orderType⟩
      refine ⟨market, ?_⟩
      rw [cid, orderType]
      exact trail.waiting call mem

/-- A call of someone else, or one that does not trade. -/
theorem Trail.call (trail : Trail executor wallet history trading) {call : SpotExecutor.Call}
    (quiet : call.sender ≠ wallet ∨ call.entry.trades = false) :
    Trail executor wallet history { trading with calls := trading.calls ++ [call] } := by
  rcases SpotExecutor.step_quiet executor quiet with ⟨owner, silent⟩
  have placed : placedOrders executor wallet (trading.calls ++ [call]) =
      placedOrders executor wallet trading.calls := by
    rw [placedOrders_concat, trail.owner, silent, List.append_nil]
  refine ⟨?_, ?_, trail.waiting, ?_⟩
  · rw [SpotExecutor.ownerAfter_concat, trail.owner, owner]
  · dsimp only
    rw [placed]
    exact trail.sent
  · dsimp only
    rw [placed]
    exact trail.placed

/-- An order that the process sends under its last receipt is backed when it is handed over. -/
theorem backed_of_handed {world : World} {venue : Venue} {decision : Decision} {amountUsd : ℚ}
    {call : OrderCall} (audited : Audited hash history world)
    (authorised : Authorises history (.orderSent decision amountUsd cid))
    (handed : venue.handedCall decision amountUsd cid = some call) :
    call.cid = cid ∧ Backed (receiptsOf history) call.cid call.orderType := by
  rcases authorised decision amountUsd cid rfl with ⟨receipt, last, trade, decided, rfl⟩
  have mem : receipt ∈ receiptsOf history := List.mem_of_getLast? last
  have nonempty := audited.receiptCid_ne_empty mem
  have given : ((venue.live.executor venue.slippageBps).request decision amountUsd
      (receiptCid receipt.hash)).cid = some (receiptCid receipt.hash) := by
    simp [Executor.request, nonempty, Venue.live, LiveBackend.executor,
      LiveBackend.toExecutionBackend, InjectiveBackend.toExecutionBackend]
  rcases InjectiveBackend.handedCall_spec given nonempty handed with
    ⟨named, plan, planned, direction⟩
  exact ⟨named, receipt, mem, trade, named, decision, plan, decided, planned, direction⟩

/-- What handing an order over does: the order is the next effect of the process. -/
theorem trade_hand {venue : Venue} (stepped : trade wallet trading (.hand venue) =
      some (next, events)) : ∃ decision amountUsd cid todo call,
    trading.recorder.todo = .orderSent decision amountUsd cid :: todo ∧
      venue.handedCall decision amountUsd cid = some call ∧
      record trading.recorder .perform = some (next.recorder, events) ∧
      events = [.orderSent decision amountUsd cid] ∧
      next = ⟨next.recorder, call :: trading.waiting, trading.calls⟩ := by
  dsimp only [trade] at stepped
  split at stepped
  · next decision amountUsd cid todo pending =>
    rcases Option.bind_eq_some_iff.1 stepped with ⟨call, handed, stepped⟩
    rcases Option.map_eq_some_iff.1 stepped with ⟨⟨recorder, noted⟩, moved, same⟩
    cases same
    refine ⟨decision, amountUsd, cid, todo, call, pending, handed, moved, ?_, rfl⟩
    rw [record, pending] at moved
    cases moved
    rfl
  · cases stepped

/-- **One step** keeps the trail. -/
theorem trail_step (audited : Audited hash history trading.recorder.world)
    (due : Due hash history trading.recorder.world trading.recorder.todo)
    (trail : Trail executor wallet history trading)
    (allowed : soleTrader wallet configFile trading action = true)
    (stepped : trade wallet trading action = some (next, events)) :
    Trail executor wallet (history ++ events) next := by
  cases action with
  | process action =>
      rcases Option.map_eq_some_iff.1 stepped with ⟨⟨recorder, noted⟩, moved, same⟩
      cases same
      exact trail.extend recorder noted
  | hand venue =>
      rcases trade_hand stepped with
        ⟨decision, amountUsd, cid, todo, call, pending, handed, -, rfl, same⟩
      rw [pending] at due
      rcases audited_write audited due with ⟨-, -, authorised⟩
      rcases backed_of_handed audited authorised handed with ⟨rfl, backed⟩
      rw [same]
      exact trail.hand _ decision amountUsd backed
  | run index exchange =>
      rcases Option.map_eq_some_iff.1 stepped with ⟨call, found, same⟩
      cases same
      rw [List.append_nil]
      exact trail.run found exchange
  | drop index =>
      cases stepped
      rw [List.append_nil]
      exact trail.drop index
  | call call =>
      cases stepped
      rw [List.append_nil]
      exact trail.call (by simpa [soleTrader] using allowed)

/-- What a step is for the process and its logs. -/
theorem recorder_step (allowed : soleTrader wallet configFile trading action = true)
    (stepped : trade wallet trading action = some (next, events)) :
    Run (movesOf record (underFile configFile)) trading.recorder events next.recorder := by
  cases action with
  | process action =>
      rcases Option.map_eq_some_iff.1 stepped with ⟨⟨recorder, noted⟩, moved, same⟩
      cases same
      exact .single ⟨action, allowed, moved⟩
  | hand venue =>
      rcases trade_hand stepped with ⟨_, _, _, _, _, -, -, moved, -⟩
      exact .single ⟨.perform, rfl, moved⟩
  | run index exchange =>
      rcases Option.map_eq_some_iff.1 stepped with ⟨call, -, same⟩
      cases same
      exact .stay
  | drop index =>
      cases stepped
      exact .stay
  | call call =>
      cases stepped
      exact .stay

end Steps

/-- **Every order on the contract has its receipt.** In every run of the process and the network
under a fixed configuration file, from a contract that the wallet has just deployed, the orders in
the event log are market orders, each of them has a receipt of its own that is on disk and lets
the trade through, and it goes in the direction of the decision that the receipt tells. -/
theorem every_order_receipted (executor wallet : Address) (configFile : Option String)
    (committed : Json) (loaded : loadConfig configFile = .ok committed) (start last : Trading)
    (noReceipts : start.recorder.world.receipts = [])
    (noExecutions : start.recorder.world.executions = []) (idle : start.recorder.todo = [])
    (nothingWaits : start.waiting = []) (nothingRun : start.calls = []) (history : List Event)
    (run : Run (movesOf (trade wallet) (soleTrader wallet configFile)) start history last) :
    Audited (policyHash committed) history last.recorder.world ∧
      ((placedOrders executor wallet last.calls).map OrderEntry.cid).Subperm
        ((tradeHashes (receiptsOf history)).map receiptCid) ∧
      ∀ order ∈ placedOrders executor wallet last.calls,
        order.resting = false ∧ Backed (receiptsOf history) order.cid order.orderType := by
  have hashed : committedPolicyHash configFile = .ok (policyHash committed) :=
    committedPolicyHash_eq_ok_iff.2 ⟨committed, loaded, rfl⟩
  have followed : Run (movesOf record (underFile configFile)) start.recorder history
      last.recorder ∧ Trail executor wallet history last := by
    refine run.invariant (fun history trading =>
      Run (movesOf record (underFile configFile)) start.recorder history trading.recorder ∧
        Trail executor wallet history trading) ⟨.stay, ?_⟩ ?_
    · have nothing : placedOrders executor wallet start.calls = [] := by
        rw [nothingRun]
        rfl
      refine ⟨by rw [nothingRun]; rfl, ?_, ?_, ?_⟩
      · rw [nothing, nothingWaits]
        exact List.nil_subperm
      · simp [nothingWaits]
      · simp [nothing]
    · rintro history trading events next ⟨recorded, trail⟩ ⟨action, allowed, stepped⟩
      rcases audited_run hashed noReceipts noExecutions idle recorded with ⟨audited, due⟩
      exact ⟨recorded.trans (recorder_step allowed stepped),
        trail_step audited due trail allowed stepped⟩
  rcases followed with ⟨recorded, trail⟩
  rcases audited_run hashed noReceipts noExecutions idle recorded with ⟨audited, -⟩
  refine ⟨audited, ?_, trail.placed⟩
  have sent := (List.sublist_append_left ((placedOrders executor wallet last.calls).map
    OrderEntry.cid) (last.waiting.map OrderCall.cid)).subperm.trans trail.sent
  exact sent.trans audited.sent.subperm

/-- The backend of the entry that reaches the exchange. -/
def entryVenue : Venue where
  backend := ExitSetting.wiredBackend
  env := ExitSetting.ticksEnviron
  indexer := ExitSetting.indexerOfBid "0.00000000002"
  chain := contractChain
  slippageBps := 50

/-- A tick hands its order over and dies; the contract runs the order after that. -/
def runAfterDeath : List Trading.Action :=
  [.process (.call ⟨some "\x7b\x7d", entryState, entryInput contractEntry⟩), .process .perform,
    .process .perform, .hand entryVenue, .process .die, .run 0 fillingExchange]

theorem every_order_receipted_runAfterDeath : ∃ last history,
    trace (trade 0xA) (soleTrader 0xA (some "\x7b\x7d")) ⟨⟨emptyWorld, []⟩, [], []⟩
        runAfterDeath = some (last, history) ∧
      (placedOrders 0xE 0xA last.calls).length = 1 ∧ last.recorder.world.executions = [] ∧
      ∀ order ∈ placedOrders 0xE 0xA last.calls,
        order.resting = false ∧ Backed (receiptsOf history) order.cid order.orderType := by
  have traced : (trace (trade 0xA) (soleTrader 0xA (some "\x7b\x7d")) ⟨⟨emptyWorld, []⟩, [], []⟩
      runAfterDeath).map (fun run => (decide ((placedOrders 0xE 0xA run.1.calls).length = 1),
        decide (run.1.recorder.world.executions = []))) = some (true, true) := by
    decide +kernel
  rcases Option.map_eq_some_iff.1 traced with ⟨⟨last, history⟩, ran, told⟩
  simp only [Prod.mk.injEq, decide_eq_true_eq] at told
  rcases every_order_receipted 0xE 0xA (some "\x7b\x7d") (.obj []) rfl
    ⟨⟨emptyWorld, []⟩, [], []⟩ last rfl rfl rfl rfl rfl history (.of_trace ran) with
    ⟨-, -, backed⟩
  exact ⟨last, history, ran, told.1, told.2, backed⟩

end Core

end SumplusTrader
