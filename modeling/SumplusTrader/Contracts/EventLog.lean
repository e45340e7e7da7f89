import SumplusTrader.Contracts.Custody

/-!
# The event log of the execution contract

This file reads the contract from outside, through the events that it keeps. The log of a trace
starts with the event of the deployment. Its transfers of ownership form one unbroken line, so
whoever reads the log knows the owner at every moment, and nobody else can act at that moment.
Its orders are, in order, those that the exchange has answered.

`Handed` and `OrderEntry` are what a reader of the log works with. `step_owner` and
`step_orders` say what one call adds to them, and the laws of traces follow by induction.
-/

namespace SumplusTrader

namespace SpotExecutor

/-- The previous and the new owner of a transfer of ownership. -/
def Event.transfer? : Event → Option (Address × Address)
  | .ownerTransferred previousOwner newOwner => some (previousOwner, newOwner)
  | _ => none

/-- The transfers hand the ownership on from one address to another, none of them to zero. -/
def Handed : Address → List (Address × Address) → Address → Prop
  | first, [], last => first = last
  | first, (previous, next) :: transfers, last =>
      previous = first ∧ next ≠ 0 ∧ Handed next transfers last

/-- What the log keeps of an order, or the exchange has answered to one. -/
structure OrderEntry where
  resting : Bool
  orderHash : String
  marketID : String
  orderType : String
  price : Uint256
  quantity : Uint256
  cid : String
  deriving DecidableEq

def Event.order? : Event → Option OrderEntry
  | .spotMarketOrderPlaced orderHash marketID orderType price quantity cid =>
      some ⟨false, orderHash, marketID, orderType, price, quantity, cid⟩
  | .spotLimitOrderPlaced orderHash marketID orderType price quantity cid =>
      some ⟨true, orderHash, marketID, orderType, price, quantity, cid⟩
  | _ => none

/-- The order of a request under the hash that the exchange answers with. -/
def Exchange.ordered (exchange : Exchange) : Request → Option OrderEntry
  | .createSpotMarketOrder sender order =>
      (exchange (.createSpotMarketOrder sender order)).value?.map fun resp =>
        ⟨false, resp.orderHash, order.marketID, order.orderType, order.price, order.quantity,
          order.cid⟩
  | .createSpotLimitOrder sender order =>
      (exchange (.createSpotLimitOrder sender order)).value?.map fun resp =>
        ⟨true, resp.orderHash, order.marketID, order.orderType, order.price, order.quantity,
          order.cid⟩
  | _ => none

/-- The orders of a call that the exchange has answered. -/
def Met.answeredOrders (executor : Address) (m : Met) : List OrderEntry :=
  (m.effects executor).requests.filterMap m.call.exchange.ordered

/-- The order that a call asks for, under the hash that is given to it. -/
def Entry.order? (orderHash : String) : Entry → Option OrderEntry
  | .placeSpotMarketOrder args =>
      some ⟨false, orderHash, args.marketID, args.orderType, args.price, args.quantity, args.cid⟩
  | .placeSpotLimitOrder args =>
      some ⟨true, orderHash, args.marketID, args.orderType, args.price, args.quantity, args.cid⟩
  | _ => none

/-- The events that the calls of a trace keep. -/
def emittedEvents (executor owner : Address) (calls : List Call) : List Event :=
  (trace executor owner calls).flatMap fun m => (m.effects executor).events

/-- The log of a contract from its deployment on. -/
def eventLog (executor deployer : Address) (calls : List Call) : List Event :=
  (deploy deployer).events ++ emittedEvents executor (deploy deployer).owner calls

/-- The owner that the calls of a trace leave. -/
def ownerAfter (executor owner : Address) (calls : List Call) : Address :=
  calls.foldl (fun owner call => (step executor owner call).owner) owner

/-- A call that has no effect beyond the reading of a balance. -/
structure Idle (executor : Address) (m : Met) : Prop where
  owner : (m.effects executor).owner = m.owner
  events : (m.effects executor).events = []
  requests : ∀ request ∈ (m.effects executor).requests,
    ∃ subaccountID denom, request = .subaccountDeposit subaccountID denom

variable {executor owner sender first middle last : Address} {exchange : Exchange} {m : Met}
  {entry : Entry} {calls : List Call}

theorem Handed.append {transfers more : List (Address × Address)}
    (left : Handed first transfers middle) (right : Handed middle more last) :
    Handed first (transfers ++ more) last := by
  induction transfers generalizing first with
  | nil =>
      rw [Handed] at left
      rwa [left]
  | cons transfer transfers ih =>
      rcases left with ⟨starts, proper, rest⟩
      exact ⟨starts, proper, ih rest⟩

/-- The last transfer names the owner. -/
theorem Handed.getLast {transfers : List (Address × Address)} (nonempty : transfers ≠ [])
    (handed : Handed first transfers last) :
    transfers.getLast?.map Prod.snd = some last := by
  induction transfers generalizing first with
  | nil => exact absurd rfl nonempty
  | cons transfer transfers ih =>
      rcases handed with ⟨-, -, rest⟩
      cases transfers with
      | nil =>
          rw [Handed] at rest
          rw [← rest]
          rfl
      | cons next transfers =>
          rw [List.getLast?_cons_cons]
          exact ih (List.cons_ne_nil _ _) rest

theorem Handed.ne_zero {transfers : List (Address × Address)} (nonempty : transfers ≠ [])
    (handed : Handed first transfers last) : last ≠ 0 := by
  induction transfers generalizing first with
  | nil => exact absurd rfl nonempty
  | cons transfer transfers ih =>
      rcases handed with ⟨-, proper, rest⟩
      cases transfers with
      | nil =>
          rw [Handed] at rest
          rwa [← rest]
      | cons next transfers => exact ih (List.cons_ne_nil _ _) rest

/-- A guarded request leaves the owner as it was. -/
@[simp]
theorem owner_tryExchange (name : String) (owner : Address) (exchange : Exchange)
    (request : Request) (returned : request.Response → Event × Returned) :
    (tryExchange name owner exchange request returned).owner = owner := by
  unfold tryExchange
  split <;> rfl

@[simp]
theorem owner_subaccountBalance (owner : Address) (exchange : Exchange)
    (subaccountID denom : String) :
    (subaccountBalance owner exchange subaccountID denom).owner = owner := by
  unfold subaccountBalance
  split <;> rfl

/-- Events of one kind that the guarded request alone can emit. -/
theorem tryExchange_filterMap {α : Type} (name : String) (owner : Address) (exchange : Exchange)
    (request : Request) (returned : request.Response → Event × Returned)
    (read : Event → Option α) :
    (tryExchange name owner exchange request returned).events.filterMap read =
      ((exchange request).value?.bind fun value => read (returned value).1).toList := by
  rw [events_tryExchange]
  cases (exchange request).value? with
  | none => rfl
  | some value =>
      cases kind : read (returned value).1 with
      | none => simp [kind]
      | some entry => simp [kind]

/-- A request whose event is no transfer leaves the ownership. -/
theorem tryExchange_handed (name : String) (owner : Address) (exchange : Exchange)
    (request : Request) (returned : request.Response → Event × Returned)
    (silent : ∀ value, (returned value).1.transfer? = none) :
    Handed owner
      ((tryExchange name owner exchange request returned).events.filterMap Event.transfer?)
      (tryExchange name owner exchange request returned).owner := by
  rw [tryExchange_filterMap, owner_tryExchange]
  cases (exchange request).value? with
  | none => rfl
  | some value =>
      rw [Option.bind_some, silent value]
      rfl

/-- A request whose event carries its answer is logged exactly when it is answered. -/
theorem tryExchange_orders (name : String) (owner : Address) (exchange : Exchange)
    (request : Request) (returned : request.Response → Event × Returned)
    (carried : exchange.ordered request =
      (exchange request).value?.bind fun value => (returned value).1.order?) :
    (tryExchange name owner exchange request returned).events.filterMap Event.order? =
      (tryExchange name owner exchange request returned).requests.filterMap exchange.ordered := by
  rw [tryExchange_filterMap, requests_tryExchange, ← carried]
  cases ordered : exchange.ordered request with
  | none => simp [ordered]
  | some order => simp [ordered]

/-- What the function of an owner does to the log. -/
theorem dispatch_log (executor owner : Address) (exchange : Exchange) (entry : Entry) :
    Handed owner ((dispatch executor owner owner exchange entry).events.filterMap Event.transfer?)
        (dispatch executor owner owner exchange entry).owner ∧
      (dispatch executor owner owner exchange entry).events.filterMap Event.order? =
        (dispatch executor owner owner exchange entry).requests.filterMap exchange.ordered := by
  cases entry with
  | receive | exchange | owner => exact ⟨rfl, rfl⟩
  | transferOwnership newOwner =>
      rw [dispatch, onlyOwner_self, transferOwnership]
      split
      · next proper => exact ⟨⟨rfl, proper, rfl⟩, rfl⟩
      · exact ⟨rfl, rfl⟩
  | deposit account coin amount =>
      rw [dispatch, onlyOwner_self]
      exact ⟨tryExchange_handed _ _ _ _ _ fun _ => rfl, tryExchange_orders _ _ _ _ _ (by
        cases (exchange (.deposit executor account coin amount)).value? <;> rfl)⟩
  | withdraw account coin amount =>
      rw [dispatch, onlyOwner_self]
      exact ⟨tryExchange_handed _ _ _ _ _ fun _ => rfl, tryExchange_orders _ _ _ _ _ (by
        cases (exchange (.withdraw executor account coin amount)).value? <;> rfl)⟩
  | placeSpotMarketOrder args =>
      rw [dispatch, onlyOwner_self]
      refine ⟨tryExchange_handed _ _ _ _ _ fun _ => rfl, tryExchange_orders _ _ _ _ _ ?_⟩
      rw [Exchange.ordered]
      cases (exchange (.createSpotMarketOrder executor args.order)).value? <;> rfl
  | placeSpotLimitOrder args =>
      rw [dispatch, onlyOwner_self]
      refine ⟨tryExchange_handed _ _ _ _ _ fun _ => rfl, tryExchange_orders _ _ _ _ _ ?_⟩
      rw [Exchange.ordered]
      cases (exchange (.createSpotLimitOrder executor args.order)).value? <;> rfl
  | subaccountBalance account coin =>
      have effects := subaccountBalance_effects owner exchange account coin
      rw [dispatch, effects.1, effects.2, owner_subaccountBalance]
      exact ⟨rfl, rfl⟩

/-- A function that is not for the sender leaves everything, apart from the reading of a
balance. -/
theorem dispatch_idle (executor : Address) (exchange : Exchange) (entry : Entry)
    (outside : sender ≠ owner) :
    (dispatch executor owner sender exchange entry).owner = owner ∧
      ∀ request ∈ (dispatch executor owner sender exchange entry).requests,
        ∃ subaccountID denom, request = .subaccountDeposit subaccountID denom := by
  cases entry with
  | receive | exchange | owner => exact ⟨rfl, by simp [dispatch]⟩
  | subaccountBalance account coin =>
      rw [dispatch, (subaccountBalance_effects owner exchange account coin).2,
        owner_subaccountBalance]
      exact ⟨rfl, by simp⟩
  | transferOwnership | deposit | withdraw | placeSpotMarketOrder | placeSpotLimitOrder =>
      rw [dispatch, onlyOwner_of_ne outside]
      exact ⟨rfl, by simp [revert]⟩

/-- **Only the owner acts**: a call by anyone else, or one that carries value to a function that
takes none, is idle. -/
theorem idle_of_outside (executor : Address) (m : Met) (outside : m.call.sender ≠ m.owner) :
    Idle executor m := by
  by_cases accepts : m.call.value = 0 ∨ m.call.entry.payable
  · have idle := dispatch_idle executor m.call.exchange m.call.entry outside
    have silent := dispatch_outside executor m.call.exchange m.call.entry outside
    rw [← step_of_accepts m.call accepts] at idle silent
    exact ⟨idle.1, silent.1, idle.2⟩
  · have refused : m.effects executor = revert m.owner [] none := step_of_value m.call accepts
    exact ⟨by rw [refused]; rfl, by rw [refused]; rfl, by rw [refused]; simp [revert]⟩

/-- What a call does to the log. -/
theorem step_log (executor owner : Address) (call : Call) :
    Handed owner ((step executor owner call).events.filterMap Event.transfer?)
        (step executor owner call).owner ∧
      (step executor owner call).events.filterMap Event.order? =
        (step executor owner call).requests.filterMap call.exchange.ordered := by
  by_cases inside : call.sender = owner
  · by_cases accepts : call.value = 0 ∨ call.entry.payable
    · rw [step_of_accepts call accepts, inside]
      exact dispatch_log executor owner call.exchange call.entry
    · rw [step_of_value call accepts]
      exact ⟨rfl, rfl⟩
  · have idle := idle_of_outside executor ⟨owner, call⟩ inside
    have events : (step executor owner call).events = [] := idle.events
    have same : (step executor owner call).owner = owner := idle.owner
    rw [events, same]
    refine ⟨rfl, ?_⟩
    rw [List.filterMap_nil, eq_comm, List.filterMap_eq_nil_iff]
    intro request mem
    rcases idle.requests request mem with ⟨account, coin, rfl⟩
    rfl

theorem emittedEvents_cons (executor owner : Address) (call : Call) (calls : List Call) :
    emittedEvents executor owner (call :: calls) =
      (step executor owner call).events ++
        emittedEvents executor (step executor owner call).owner calls := by
  rw [emittedEvents, trace, List.flatMap_cons]
  rfl

/-- The calls of a trace hand the ownership on to the owner that they leave. -/
theorem emittedEvents_handed (executor owner : Address) (calls : List Call) :
    Handed owner ((emittedEvents executor owner calls).filterMap Event.transfer?)
      (ownerAfter executor owner calls) := by
  induction calls generalizing owner with
  | nil => rfl
  | cons call calls ih =>
      rw [emittedEvents_cons, List.filterMap_append, ownerAfter, List.foldl_cons]
      exact (step_log executor owner call).1.append (ih _)

/-- The owner that a call meets is the one that the calls before it have left. -/
theorem owner_of_trace (executor owner : Address) (calls : List Call) (n : ℕ) (m : Met)
    (met : (trace executor owner calls)[n]? = some m) :
    m.owner = ownerAfter executor owner (calls.take n) := by
  induction calls generalizing owner n with
  | nil => simp [trace] at met
  | cons call calls ih =>
      cases n with
      | zero =>
          rw [trace, List.getElem?_cons_zero, Option.some.injEq] at met
          rw [← met]
          rfl
      | succ n =>
          rw [trace, List.getElem?_cons_succ] at met
          rw [ih _ n met, List.take_succ_cons, ownerAfter, ownerAfter, List.foldl_cons]

/-- The transfers of a log lead from zero to the owner of the contract. -/
theorem eventLog_handed (executor : Address) {deployer : Address} (proper : deployer ≠ 0)
    (calls : List Call) :
    Handed 0 ((eventLog executor deployer calls).filterMap Event.transfer?)
      (ownerAfter executor deployer calls) := by
  rw [eventLog, List.filterMap_append]
  have deployed : Handed 0 [(0, deployer)] deployer := ⟨rfl, proper, rfl⟩
  exact deployed.append (emittedEvents_handed executor deployer calls)

/-- The owner according to a log: the last address that the ownership was handed to. -/
def loggedOwner (log : List Event) : Option Address :=
  (log.filterMap Event.transfer?).getLast?.map Prod.snd

/-- **The event log governs the contract.** The transfers in the log form one line from zero,
never to zero again; at every call of a trace the owner is the one that the log names by then,
and a call by anyone else is idle. -/
theorem eventLog_governs (executor deployer : Address) (proper : deployer ≠ 0)
    (calls : List Call) :
    Handed 0 ((eventLog executor deployer calls).filterMap Event.transfer?)
        (ownerAfter executor deployer calls) ∧
      ownerAfter executor deployer calls ≠ 0 ∧
      ∀ n m, (trace executor deployer calls)[n]? = some m →
        loggedOwner (eventLog executor deployer (calls.take n)) = some m.owner ∧
          (m.call.sender ≠ m.owner → Idle executor m) := by
  have deployed : ∀ calls,
      (eventLog executor deployer calls).filterMap Event.transfer? ≠ [] := by
    intro calls
    rw [eventLog, List.filterMap_append]
    exact List.cons_ne_nil _ _
  have handed := fun calls => eventLog_handed executor proper calls
  refine ⟨handed calls, (handed calls).ne_zero (deployed calls), ?_⟩
  intro n m met
  refine ⟨?_, idle_of_outside executor m⟩
  rw [owner_of_trace executor deployer calls n m met]
  exact (handed (calls.take n)).getLast (deployed (calls.take n))

/-- The deployer hands the contract over and then tries to trade all the same. -/
def handedOver : List Call :=
  [⟨0xA, 0, .transferOwnership 0xB, refusing⟩,
    ⟨0xA, 0, .deposit "0x01" "inj" 5, refusing⟩]

theorem eventLog_governs_handedOver :
    Handed 0 ((eventLog 0xE 0xA handedOver).filterMap Event.transfer?)
        (ownerAfter 0xE 0xA handedOver) ∧
      ownerAfter 0xE 0xA handedOver ≠ 0 ∧
      ∀ n m, (trace 0xE 0xA handedOver)[n]? = some m →
        loggedOwner (eventLog 0xE 0xA (handedOver.take n)) = some m.owner ∧
          (m.call.sender ≠ m.owner → Idle 0xE m) :=
  eventLog_governs 0xE 0xA (by decide) handedOver

example : ownerAfter 0xE 0xA handedOver = 0xB ∧ (eventLog 0xE 0xA handedOver).length = 2 := by
  decide

/-- An order that the exchange answers to a request is the one that the owner has called for. -/
theorem tryExchange_answered {name : String} {request : Request}
    {returned : request.Response → Event × Returned} {order : OrderEntry}
    (answered : order ∈
      (tryExchange name owner exchange request returned).requests.filterMap exchange.ordered) :
    exchange.ordered request = some order := by
  rw [requests_tryExchange, List.mem_filterMap] at answered
  rcases answered with ⟨request', mem, ordered⟩
  rw [List.mem_singleton] at mem
  rwa [← mem]

theorem dispatch_answered {order : OrderEntry}
    (answered : order ∈
      (dispatch executor owner owner exchange entry).requests.filterMap exchange.ordered) :
    entry.order? order.orderHash = some order := by
  cases entry with
  | receive | exchange | owner => simp [dispatch] at answered
  | transferOwnership newOwner =>
      rw [dispatch, onlyOwner_self, transferOwnership] at answered
      split at answered <;> simp [revert] at answered
  | deposit | withdraw =>
      rw [dispatch, onlyOwner_self] at answered
      cases tryExchange_answered answered
  | placeSpotMarketOrder args | placeSpotLimitOrder args =>
      rw [dispatch, onlyOwner_self] at answered
      have ordered := tryExchange_answered answered
      rw [Exchange.ordered, Option.map_eq_some_iff] at ordered
      rcases ordered with ⟨resp, -, rfl⟩
      rfl
  | subaccountBalance account coin =>
      rw [dispatch, (subaccountBalance_effects owner exchange account coin).2] at answered
      simp [Exchange.ordered] at answered

/-- An answered order is what its call asks for, and the call is the owner's. -/
theorem answeredOrders_of_owner {order : OrderEntry} (answered : order ∈ m.answeredOrders executor) :
    m.call.sender = m.owner ∧ m.call.entry.order? order.orderHash = some order := by
  rw [Met.answeredOrders] at answered
  by_cases inside : m.call.sender = m.owner
  · refine ⟨inside, ?_⟩
    rw [Met.effects] at answered
    by_cases accepts : m.call.value = 0 ∨ m.call.entry.payable
    · rw [step_of_accepts m.call accepts, inside] at answered
      exact dispatch_answered answered
    · rw [step_of_value m.call accepts] at answered
      simp [revert] at answered
  · rcases List.mem_filterMap.1 answered with ⟨request, mem, ordered⟩
    rcases (idle_of_outside executor m inside).requests request mem with ⟨account, coin, rfl⟩
    cases ordered

/-- **The orders in the log are the exchange's answers**: over a trace the order events are, one
for one and in order, the orders that the exchange has answered, under the hashes that it gave,
and each of them is what the owner at its time has called for. -/
theorem eventLog_orders (executor deployer : Address) (calls : List Call) :
    (eventLog executor deployer calls).filterMap Event.order? =
        (trace executor deployer calls).flatMap (Met.answeredOrders executor) ∧
      ∀ m ∈ trace executor deployer calls, ∀ order ∈ m.answeredOrders executor,
        m.call.sender = m.owner ∧ m.call.entry.order? order.orderHash = some order := by
  refine ⟨?_, fun m _ order answered => answeredOrders_of_owner answered⟩
  have emitted : ∀ owner, (emittedEvents executor owner calls).filterMap Event.order? =
      (trace executor owner calls).flatMap (Met.answeredOrders executor) := by
    induction calls with
    | nil => exact fun _ => rfl
    | cons call calls ih =>
        intro owner
        rw [emittedEvents_cons, List.filterMap_append, ih, (step_log executor owner call).2,
          trace, List.flatMap_cons]
        rfl
  rw [eventLog, List.filterMap_append]
  exact emitted deployer

end SpotExecutor

end SumplusTrader
