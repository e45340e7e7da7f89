import SumplusTrader.Core.ExposureCap
import SumplusTrader.Core.LiveTick
import SumplusTrader.Execution.ExitSize
import SumplusTrader.Execution.TwakBackend

/-!
# Orders of unknown outcome

This file follows an order that has been handed over to the network through the backend and
the tick. The backends fold most failures after that point into a result that says the order
was not executed, and a tick that reads such a result clears the pending intent.

`handed_over_accounted_iff` says for which answers of the network the order stays accounted
for: it is booked, or its intent is still pending. A backend that raises leaves the staged
intent on disk, so it is the backends' effort to return a result that loses the order.
-/

namespace SumplusTrader

/-- A backend that hands orders over to the network, with what answers it. -/
inductive LiveBackend where
  | injective (backend : InjectiveBackend) (env : Environ) (indexer : Indexer)
      (chain : InjectiveChain)
  | twak (backend : TwakBackend) (env : Environ) (shell : List String → CommandRun)

namespace LiveBackend

def toExecutionBackend : LiveBackend → ExecutionBackend
  | .injective backend env indexer chain => backend.toExecutionBackend env indexer chain
  | .twak backend env shell => backend.toExecutionBackend env shell

/-- The executor of a live deployment. -/
def executor (live : LiveBackend) (slippageBps : ℤ) : Executor :=
  ⟨live.toExecutionBackend, "live", slippageBps⟩

/-- The chain accepts the transaction of a request, or the command of a request is run. -/
def handsOver : LiveBackend → SwapRequest → Bool
  | .injective backend env indexer chain, request =>
      (backend.swap env indexer chain request).1.isSome
  | .twak backend env shell, request => (backend.swap env shell request).1.isSome

end LiveBackend

/-- The receipt of a transaction arrives and reports success. -/
def InjectiveChain.Mines (chain : InjectiveChain) (txHash : String) : Prop :=
  txHash ≠ "" ∧ ∃ receipt, chain.waitForTransactionReceipt txHash = .ok receipt ∧
    receipt.status = 1

/-- A command fails openly, or it prints an object that reports the broadcast; what is not an
object makes the backend raise. -/
def TwakBackend.Reports : Except PyError CompletedProcess → Prop
  | .error _ => True
  | .ok process => process.returncode ≠ 0 ∨ ∃ value, Json.parse process.stdout = some value ∧
      ∀ fields, value.dedupe = .obj fields →
        isTruthy (.obj fields) "dry_run" = false ∧
          ((broadcastHash (.obj fields)).truthy = true ∨
            isTruthy (.obj fields) "executed" = true)

/-- The network confirms the order of a request, once it is handed over. -/
def LiveBackend.Confirms : LiveBackend → SwapRequest → Prop
  | .injective backend env indexer chain, request =>
      ∀ txHash ∈ (backend.swap env indexer chain request).1, chain.Mines txHash
  | .twak backend env shell, request =>
      ∀ outcome ∈ (backend.swap env shell request).1, TwakBackend.Reports outcome

section Injective

variable {backend : InjectiveBackend} {env : Environ} {indexer : Indexer} {chain : InjectiveChain}

/-- An accepted transaction is reported as sent exactly when it is mined. -/
theorem InjectiveBackend.sendOrder_spec {marketId orderType cid txHash : String}
    {price quantity : ℤ} {result : Except PyError (String × String)}
    (sent : backend.sendOrder env chain marketId orderType price quantity cid =
      (some txHash, result)) :
    (∃ e, result = .error e ∧ ¬chain.Mines txHash) ∨
      ∃ orderHash, result = .ok (txHash, orderHash) ∧ (chain.Mines txHash ↔ txHash ≠ "") := by
  unfold sendOrder at sent
  split at sent
  · simp at sent
  · split at sent
    · simp at sent
    · split at sent
      · next hash e waits =>
        simp only [Prod.mk.injEq, Option.some.injEq] at sent
        rcases sent with ⟨rfl, rfl⟩
        refine .inl ⟨e, rfl, ?_⟩
        rintro ⟨-, receipt, arrives, -⟩
        simp [waits] at arrives
      · next hash receipt waits =>
        split at sent
        · next reverted =>
          simp only [Prod.mk.injEq, Option.some.injEq] at sent
          rcases sent with ⟨rfl, rfl⟩
          refine .inl ⟨_, rfl, ?_⟩
          rintro ⟨-, receipt', arrives, success⟩
          rw [waits, Except.ok.injEq] at arrives
          exact reverted (arrives ▸ success)
        · next success =>
          simp only [Prod.mk.injEq, Option.some.injEq] at sent
          rcases sent with ⟨rfl, rfl⟩
          refine .inr ⟨_, rfl, ?_⟩
          constructor
          · exact And.left
          · intro named
            exact ⟨named, receipt, waits, not_not.1 success⟩

theorem InjectiveBackend.place_spec {order : SpotOrder} {txHash : String}
    (accepted : (backend.place env chain order).1 = some txHash) :
    (backend.place env chain order).2.executed = true ↔ chain.Mines txHash := by
  by_cases small : order.sizing.amountUsd < order.minNotional
  · simp [place, small] at accepted
  · by_cases dry : backend.dryRun = true
    · simp [place, small, dry] at accepted
    · rcases ordered : backend.sendOrder env chain order.market order.plan.orderType
        order.sizing.priceUfixed order.sizing.quantityUfixed order.cid with
        ⟨hash, e | ⟨txHash', orderHash⟩⟩
      · simp only [place, small, dry, ordered, if_false] at accepted ⊢
        subst accepted
        rcases InjectiveBackend.sendOrder_spec ordered with ⟨e', -, lost⟩ | ⟨_, done, -⟩
        · simp [failedResult, lost]
        · simp at done
      · simp only [place, small, dry, ordered, if_false] at accepted ⊢
        subst accepted
        rcases InjectiveBackend.sendOrder_spec ordered with ⟨e', failed, -⟩ | ⟨_, done, mined⟩
        · simp at failed
        · simp only [Except.ok.injEq, Prod.mk.injEq] at done
          rcases done with ⟨rfl, rfl⟩
          simp [placedResult, mined]

theorem InjectiveBackend.place_detail_obj (order : SpotOrder) :
    ∃ fields, (backend.place env chain order).2.detail.tree = .obj fields := by
  by_cases small : order.sizing.amountUsd < order.minNotional
  · simp only [place, small, if_true]
    exact ⟨_, rfl⟩
  · by_cases dry : backend.dryRun = true
    · simp only [place, small, dry, if_true, if_false]
      exact ⟨_, rfl⟩
    · rcases ordered : backend.sendOrder env chain order.market order.plan.orderType
        order.sizing.priceUfixed order.sizing.quantityUfixed order.cid with
        ⟨hash, e | ⟨txHash, orderHash⟩⟩
      · simp only [place, small, dry, Bool.false_eq_true, ordered, if_false]
        exact ⟨_, rfl⟩
      · simp only [place, small, dry, Bool.false_eq_true, ordered, if_false]
        exact ⟨_, rfl⟩

end Injective

section Twak

variable {backend : TwakBackend} {env : Environ} {shell : List String → CommandRun}

theorem TwakBackend.resultOf_obj {out : JsonValue} {fields : List (String × Json)}
    (shape : out.tree = .obj fields) :
    (∀ result, resultOf out = .ok result → result.executed = true) ↔
      isTruthy (.obj fields) "dry_run" = false ∧
        ((broadcastHash (.obj fields)).truthy = true ∨
          isTruthy (.obj fields) "executed" = true) := by
  unfold resultOf
  split
  · next fields' shape' =>
    rw [shape, Json.obj.injEq] at shape'
    subst shape'
    split
    · next dry => simp [dry]
    · next sends => simp [sends]
  · next other => exact absurd shape (other fields)

theorem TwakBackend.resultOf_not_obj {out : JsonValue} (other : ∀ fields, out.tree ≠ .obj fields) :
    resultOf out = .error .attributeError := by
  unfold resultOf
  split
  · next fields shape => exact absurd shape (other fields)
  · rfl

/-- What was printed reports the broadcast when it makes the backend raise or say that the
order was executed. -/
theorem TwakBackend.resultOf_spec (stdout : List Char) :
    (∀ result, resultOf (readOutput stdout) = .ok result → result.executed = true) ↔
      ∃ value, Json.parse stdout = some value ∧ ∀ fields, value.dedupe = .obj fields →
        isTruthy (.obj fields) "dry_run" = false ∧
          ((broadcastHash (.obj fields)).truthy = true ∨
            isTruthy (.obj fields) "executed" = true) := by
  rcases parsed : Json.parse stdout with _ | value
  · have raw : readOutput stdout = .ofLiteral (.obj [("raw",
        .str (String.ofList (Py.strip stdout))), ("source", .str "twak")]) := by
      simp [readOutput, parsed]
    have shape : (JsonValue.ofLiteral (.obj [("raw", .str (String.ofList (Py.strip stdout))),
        ("source", .str "twak")])).tree = .obj [("raw", .str (String.ofList (Py.strip stdout))),
          ("source", .str "twak")] := by
      apply Json.dedupe_eq_self
      simp [Json.DistinctKeys, Json.DistinctKeysFields]
    rw [raw, resultOf_obj shape]
    simp [broadcastHash, firstTruthy, isTruthy, Json.get?, Json.truthy, List.lookup_cons]
  · have printed : (readOutput stdout).tree = value.dedupe := by
      simp [readOutput, parsed, JsonValue.ofLiteral]
    rcases shape : value.dedupe with _ | _ | _ | _ | _ | fields
    case obj =>
      rw [resultOf_obj (printed.trans shape)]
      simp [shape]
    all_goals
      rw [resultOf_not_obj (by simp [printed, shape])]
      simp [shape]

theorem TwakBackend.swap_spec {request : SwapRequest}
    {outcome : Except PyError CompletedProcess}
    (ran : (backend.swap env shell request).1 = some outcome) :
    (∀ result, (backend.swap env shell request).2 = .ok result → result.executed = true) ↔
      Reports outcome := by
  unfold swap run at ran ⊢
  by_cases dry : backend.dryRun = true
  · simp [dry] at ran
  · simp only [dry, Bool.false_eq_true, if_false] at ran ⊢
    generalize shell (backend.requestCmd env false request) = answer at ran ⊢
    rcases answer with e | e | process
    · simp at ran
    · simp only [Option.some.injEq] at ran
      subst ran
      simp [Reports]
    · by_cases failed : process.returncode ≠ 0
      · simp only [ne_eq, failed, not_false_eq_true, if_true, Option.some.injEq] at ran ⊢
        subst ran
        simp [Reports, failed]
      · rw [ne_eq, not_not] at failed
        simp only [ne_eq, failed, not_true_eq_false, if_false, Option.some.injEq] at ran ⊢
        subst ran
        rw [resultOf_spec]
        simp [Reports, failed]

theorem TwakBackend.resultOf_detail_obj {out : JsonValue} {result : ExecutionResult}
    (answered : resultOf out = .ok result) : ∃ fields, result.detail.tree = .obj fields := by
  unfold resultOf at answered
  split at answered
  · next shape =>
    split at answered
    · rw [Except.ok.injEq] at answered
      subst answered
      exact ⟨_, shape⟩
    · rw [Except.ok.injEq] at answered
      subst answered
      exact ⟨_, rfl⟩
  · simp at answered

end Twak

namespace LiveBackend

variable {live : LiveBackend} {request : SwapRequest}

/-- An order that was handed over is confirmed unless the backend returns that it was not
executed. -/
theorem confirms_iff : live.Confirms request ↔
    (live.handsOver request = true → ∀ result,
      live.toExecutionBackend.executeSwap request = .ok result → result.executed = true) := by
  cases live with
  | injective backend env indexer chain =>
      simp only [Confirms, handsOver, toExecutionBackend, InjectiveBackend.toExecutionBackend,
        InjectiveBackend.swap]
      rcases backend.spotOrder env indexer request with e | order
      · simp
      · rcases accepted : (backend.place env chain order).1 with _ | txHash
        · simp
        · have placed := InjectiveBackend.place_spec accepted
          simp [placed]
  | twak backend env shell =>
      simp only [Confirms, handsOver, toExecutionBackend, TwakBackend.toExecutionBackend]
      rcases ran : (backend.swap env shell request).1 with _ | outcome
      · simp
      · simp [TwakBackend.swap_spec ran]

/-- The detail of a result is an object. -/
theorem detail_obj {result : ExecutionResult}
    (answered : live.toExecutionBackend.executeSwap request = .ok result) :
    ∃ fields, result.detail.tree = .obj fields := by
  cases live with
  | injective backend env indexer chain =>
      simp only [toExecutionBackend, InjectiveBackend.toExecutionBackend,
        InjectiveBackend.swap] at answered
      split at answered
      · simp at answered
      · next order _ =>
        rw [Except.ok.injEq] at answered
        subst answered
        exact InjectiveBackend.place_detail_obj order
  | twak backend env shell =>
      simp only [toExecutionBackend, TwakBackend.toExecutionBackend, TwakBackend.swap] at answered
      split at answered
      · simp at answered
      · exact TwakBackend.resultOf_detail_obj answered

theorem readable (live : LiveBackend) {result : ExecutionResult}
    (answered : live.toExecutionBackend.executeSwap request = .ok result) (e : PyError) :
    Core.isInjective result.detail.tree ≠ .error e := by
  rcases detail_obj answered with ⟨fields, shape⟩
  rw [shape]
  unfold Core.isInjective
  split <;> simp

end LiveBackend

namespace Core

/-- The requests for the orders that a tick has sent. -/
def sentRequests (executor : Executor) (fx : Effects) : List SwapRequest :=
  fx.outward.filterMap fun
    | .orderSent decision amount cid => some (executor.request decision amount cid)
    | _ => none

/-- A tick has handed an order over to the network. -/
def HandedOver (live : LiveBackend) (slippageBps : ℤ) (fx : Effects) : Prop :=
  ∃ request ∈ sentRequests (live.executor slippageBps) fx, live.handsOver request = true

/-- The trade of a tick is booked, or its intent is still pending: in the state that the tick
returns, or on disk when it raises. -/
def Accounted (state : State) (now : ℚ) (fx : Effects) :
    Except PyError (TickResult × State) → Prop
  | .ok (_, newState) =>
      newState.lastTradeTs = now ∧ newState.tradesThisWeek = state.tradesThisWeek + 1 ∨
        newState.pendingIntent.isSome
  | .error _ => ∃ snapshot ∈ fx.world.snapshot, snapshot.pendingIntent.isSome

section

variable {world : World} {state : State} {input : TickInput} {live : LiveBackend}
  {slippageBps : ℤ}

theorem not_simulates_executor (live : LiveBackend) (slippageBps : ℤ) :
    ¬(live.executor slippageBps).simulates := by
  simp [Executor.simulates, LiveBackend.executor]

theorem execute_executor (decision : Decision) (amount : ℚ) (cid : String) :
    (live.executor slippageBps).execute decision amount cid =
      live.toExecutionBackend.executeSwap
        ((live.executor slippageBps).request decision amount cid) := by
  apply Executor.execute_of_not_paper
  simp [LiveBackend.executor]

theorem Orders.nowTs {j : Judgement} {cid : String} (orders : Orders world state input j cid) :
    j.nowTs = enforcedNow input.nowTs input.clock := by
  rcases orders.judged with ⟨ph, log, receipt, prepared, -⟩
  rcases prepare_eq_ok_iff.1 prepared with ⟨_, _, _, _, -, -, -, -, judged⟩
  rcases judge_eq_ok_iff.1 judged with ⟨_, _, _, -, -, -, rfl⟩
  rfl

theorem Orders.unique {j j' : Judgement} {cid cid' : String}
    (orders : Orders world state input j cid) (other : Orders world state input j' cid') :
    j' = j ∧ cid' = cid := by
  rcases orders.judged with ⟨ph, log, receipt, prepared, appended, rfl⟩
  rcases (orders_iff prepared appended).1 other with ⟨rfl, rfl, -, -⟩
  exact ⟨rfl, rfl⟩

/-- A settled order is booked exactly when it was executed. -/
theorem accounted_settled_iff (state : State) (j : Judgement) (executed : Bool) (fx : Effects)
    (result : TickResult) :
    Accounted state j.nowTs fx (.ok (result, settledState state j executed)) ↔
      executed = true := by
  cases executed with
  | true => simp [Accounted, settledState, settle]
  | false => simp [Accounted, settledState, settle]

theorem mem_sentRequests_iff {fx : Effects} {executor : Executor} {pending : PendingIntent}
    {decision : Decision} {amount : ℚ} {cid : String}
    (outward : fx.outward = [.intentPersisted pending, .orderSent decision amount cid])
    (request : SwapRequest) :
    request ∈ sentRequests executor fx ↔ request = executor.request decision amount cid := by
  simp [sentRequests, outward]

theorem sentRequests_of_quiet {fx : Effects} (executor : Executor) (quiet : fx.outward = []) :
    sentRequests executor fx = [] := by
  simp [sentRequests, quiet]

/-- **An order that was handed over stays accounted for** exactly when the network confirms
the order that the tick has to send, if there is one. -/
theorem handed_over_accounted_iff (world : World) (state : State) (input : TickInput)
    (live : LiveBackend) (slippageBps : ℤ)
    (deployed : input.executor = some (live.executor slippageBps))
    (persists : input.persist.isSome = true) :
    (HandedOver live slippageBps (tick world state input).1 →
        Accounted state (enforcedNow input.nowTs input.clock) (tick world state input).1
          (tick world state input).2) ↔
      ∀ j cid, Orders world state input j cid → live.Confirms
        ((live.executor slippageBps).request j.decision j.verdict.finalAmountUsd cid) := by
  have ended := liveTick world state deployed (not_simulates_executor live slippageBps) persists
  generalize (tick world state input).1 = fx at ended ⊢
  generalize (tick world state input).2 = result at ended ⊢
  have quiet : fx.outward = [] → ¬HandedOver live slippageBps fx := by
    intro none
    simp [HandedOver, sentRequests_of_quiet _ none]
  cases ended with
  | early e idle snapshot outward => simp [quiet outward, idle]
  | held result idle snapshot outward => simp [quiet outward, idle]
  | failed j cid e orders snapshot outward answer =>
      have pending : Accounted state (enforcedNow input.nowTs input.clock) fx (.error e) :=
        ⟨stagedState state j, snapshot, rfl⟩
      simp only [pending, implies_true, true_iff]
      intro j' cid' orders'
      rcases orders.unique orders' with ⟨rfl, rfl⟩
      rw [LiveBackend.confirms_iff]
      intro _ result answered
      rw [← execute_executor] at answered
      cases answer with
      | raised e' raised => simp [answered] at raised
      | unreadable result' e' read unreadable =>
          rw [execute_executor] at read
          exact absurd unreadable (live.readable read e')
  | settled j cid executed result orders snapshot outward answer =>
      rw [← orders.nowTs, accounted_settled_iff]
      simp only [HandedOver, mem_sentRequests_iff outward, exists_eq_left]
      have booked : (live.handsOver ((live.executor slippageBps).request j.decision
          j.verdict.finalAmountUsd cid) = true → executed = true) ↔
          live.Confirms ((live.executor slippageBps).request j.decision
            j.verdict.finalAmountUsd cid) := by
        rw [LiveBackend.confirms_iff]
        cases answer with
        | read result' answered =>
            rw [execute_executor] at answered
            simp [answered]
      rw [booked]
      constructor
      · intro confirmed j' cid' orders'
        rcases orders.unique orders' with ⟨rfl, rfl⟩
        exact confirmed
      · intro confirmed
        exact confirmed j cid orders

end

/-- A tick that enters a position through a live backend, from a book of a hundred dollars. -/
def entryState : State := (markNav (hundredBook Dict.empty 100) (priceMap (rebalanceViews "USDT"))).2

def entryInput (live : LiveBackend) : TickInput :=
  { rebalanceInput "USDT" with
    executor := some (live.executor 50)
    persist := some (.ok ()) }

def injectiveBackend (chain : InjectiveChain) : LiveBackend :=
  .injective ExitSetting.wiredBackend ExitSetting.ticksEnviron
    (ExitSetting.indexerOfBid "0.00000000002") chain

/-- A wallet tool that completes with the same output for every command. -/
def printingTool (stdout : String) : LiveBackend :=
  .twak (.ofEnviron true none) (fun _ => none) fun _ => .started (.ok ⟨0, stdout.toList, []⟩)

/-- Whether the entry is handed over, and what the tick then returns: whether an intent is
pending, and the number of trades. -/
def entryOutcome (live : LiveBackend) : Bool × Option (Bool × ℤ) :=
  let ticked := tick bareWorld entryState (entryInput live)
  ((sentRequests (live.executor 50) ticked.1).any live.handsOver,
    ticked.2.toOption.map fun ended => (ended.2.pendingIntent.isSome, ended.2.tradesThisWeek))

/-- The Injective backend on a chain that executes every order. -/
def minedEntry : LiveBackend := injectiveBackend ExitSetting.executingChain

theorem handed_over_accounted_iff_minedEntry :
    (HandedOver minedEntry 50 (tick bareWorld entryState (entryInput minedEntry)).1 →
        Accounted entryState (enforcedNow (entryInput minedEntry).nowTs (entryInput minedEntry).clock)
          (tick bareWorld entryState (entryInput minedEntry)).1
          (tick bareWorld entryState (entryInput minedEntry)).2) ↔
      ∀ j cid, Orders bareWorld entryState (entryInput minedEntry) j cid → minedEntry.Confirms
        ((minedEntry.executor 50).request j.decision j.verdict.finalAmountUsd cid) :=
  handed_over_accounted_iff bareWorld entryState (entryInput minedEntry) minedEntry 50 rfl rfl

/-- An order that was handed over is neither booked nor pending after the tick. -/
def Forgets (live : LiveBackend) : Prop :=
  HandedOver live 50 (tick bareWorld entryState (entryInput live)).1 ∧
    ¬Accounted entryState (enforcedNow (entryInput live).nowTs (entryInput live).clock)
      (tick bareWorld entryState (entryInput live)).1 (tick bareWorld entryState (entryInput live)).2

theorem forgets_of_entryOutcome {live : LiveBackend}
    (outcome : entryOutcome live = (true, some (false, entryState.tradesThisWeek))) :
    Forgets live := by
  unfold entryOutcome at outcome
  rw [Prod.mk.injEq, List.any_eq_true, Option.map_eq_some_iff] at outcome
  rcases outcome with ⟨⟨request, sent, accepted⟩, ⟨result, newState⟩, ended, values⟩
  rw [toOption_eq_some_iff] at ended
  simp only [Prod.mk.injEq] at values
  rcases values with ⟨cleared, unbooked⟩
  refine ⟨⟨request, sent, accepted⟩, ?_⟩
  rw [ended]
  rintro (⟨-, booked⟩ | pending)
  · rw [unbooked] at booked
    omega
  · simp [cleared] at pending

/-- A receipt that does not arrive, and an output that does not parse, lose the order. -/
theorem unconfirmed_orders_forgotten :
    Forgets (injectiveBackend { ExitSetting.executingChain with
        waitForTransactionReceipt := fun _ => .error .osError }) ∧
      Forgets (printingTool "swap submitted") := by
  constructor
  · apply forgets_of_entryOutcome
    decide +kernel
  · apply forgets_of_entryOutcome
    decide +kernel

end Core

end SumplusTrader
