import Mathlib.Data.BitVec

/-!
# The execution contract

This file models `SpotExecutor.sol`, the contract that holds the funds of the agent on the
exchange, over the slice of the exchange precompile that `IExchange.sol` declares.

The precompile is not part of the repository, so a call of the contract comes with the behaviour
of the precompile at its time: to every request it returns a value of the declared type, or
reverts. A call of the contract yields the owner after it, the events that are kept, the requests
that reached the precompile and what the sender gets back. A reverted call leaves the owner as it
was and keeps no event, but its request has reached the precompile all the same.
-/

namespace SumplusTrader

namespace SpotExecutor

abbrev Address := BitVec 160

abbrev Uint256 := BitVec 256

/-- `IExchangeModule.SpotOrder`. -/
structure SpotOrder where
  marketID : String
  subaccountID : String
  feeRecipient : String
  price : Uint256
  quantity : Uint256
  cid : String
  orderType : String
  triggerPrice : Uint256

/-- `IExchangeModule.CreateSpotMarketOrderResponse`. -/
structure CreateSpotMarketOrderResponse where
  orderHash : String
  cid : String
  quantity : Uint256
  price : Uint256
  fee : Uint256

/-- `IExchangeModule.CreateSpotLimitOrderResponse`. -/
structure CreateSpotLimitOrderResponse where
  orderHash : String
  cid : String

/-- A call of the precompile. -/
inductive Request where
  | deposit (sender : Address) (subaccountID denom : String) (amount : Uint256)
  | withdraw (sender : Address) (subaccountID denom : String) (amount : Uint256)
  | subaccountDeposit (subaccountID denom : String)
  | createSpotMarketOrder (sender : Address) (order : SpotOrder)
  | createSpotLimitOrder (sender : Address) (order : SpotOrder)

/-- What the precompile returns to a request. -/
abbrev Request.Response : Request → Type
  | .deposit _ _ _ _ => Bool
  | .withdraw _ _ _ _ => Bool
  | .subaccountDeposit _ _ => Uint256 × Uint256
  | .createSpotMarketOrder _ _ => CreateSpotMarketOrderResponse
  | .createSpotLimitOrder _ _ => CreateSpotLimitOrderResponse

/-- The precompile returns, or reverts with the reason of an `Error` or without one. -/
inductive Answer (β : Type) where
  | returns (value : β)
  | reverts (reason : Option String)

def Answer.value? {β : Type} : Answer β → Option β
  | .returns value => some value
  | .reverts _ => none

/-- A behaviour of the precompile. -/
abbrev Exchange := (request : Request) → Answer request.Response

inductive Event where
  | deposited (subaccountID denom : String) (amount : Uint256)
  | withdrawn (subaccountID denom : String) (amount : Uint256)
  | spotMarketOrderPlaced (orderHash marketID orderType : String) (price quantity : Uint256)
      (cid : String)
  | spotLimitOrderPlaced (orderHash marketID orderType : String) (price quantity : Uint256)
      (cid : String)
  | ownerTransferred (previousOwner newOwner : Address)
  deriving DecidableEq

/-- The arguments that both order functions share. -/
structure OrderArgs where
  marketID : String
  subaccountID : String
  feeRecipient : String
  price : Uint256
  quantity : Uint256
  cid : String
  orderType : String

/-- The function that a call names, with its arguments. -/
inductive Entry where
  | receive
  | exchange
  | owner
  | transferOwnership (newOwner : Address)
  | deposit (subaccountID denom : String) (amount : Uint256)
  | withdraw (subaccountID denom : String) (amount : Uint256)
  | placeSpotMarketOrder (args : OrderArgs)
  | placeSpotLimitOrder (args : OrderArgs)
  | subaccountBalance (subaccountID denom : String)

/-- Only a plain transfer may carry value. -/
def Entry.payable : Entry → Bool
  | .receive => true
  | _ => false

/-- What a call returns to its sender. -/
inductive Returned where
  | nothing
  | address (addr : Address)
  | success (ok : Bool)
  | orderHash (hash : String)
  | balance (available total : Uint256)

/-- The effects of a call. -/
structure Effects where
  owner : Address
  events : List Event
  requests : List Request
  result : Except (Option String) Returned

/-- A call of the contract, at a time at which the precompile behaves as given. -/
structure Call where
  sender : Address
  value : Uint256
  entry : Entry
  exchange : Exchange

def exchangeAddress : Address := 0x65

/-- `constructor`. -/
def deploy (sender : Address) : Effects :=
  ⟨sender, [.ownerTransferred 0 sender], [], .ok .nothing⟩

/-- A call that reverts after it has made some requests. -/
def revert (owner : Address) (requests : List Request) (reason : Option String) : Effects :=
  ⟨owner, [], requests, .error reason⟩

/-- `onlyOwner`. -/
def onlyOwner (owner sender : Address) (body : Effects) : Effects :=
  if sender = owner then body else revert owner [] (some "SpotExecutor: not owner")

/-- The `try` and `catch` around a request, in the function of this name. -/
def tryExchange (name : String) (owner : Address) (exchange : Exchange) (request : Request)
    (returned : request.Response → Event × Returned) : Effects :=
  match exchange request with
  | .returns value => ⟨owner, [(returned value).1], [request], .ok (returned value).2⟩
  | .reverts (some reason) =>
      revert owner [request] (some ("SpotExecutor." ++ name ++ ": " ++ reason))
  | .reverts none => revert owner [request] (some ("SpotExecutor." ++ name ++ ": unknown error"))

/-- `transferOwnership`. -/
def transferOwnership (owner newOwner : Address) : Effects :=
  if newOwner ≠ 0 then ⟨newOwner, [.ownerTransferred owner newOwner], [], .ok .nothing⟩
  else revert owner [] (some "SpotExecutor: zero owner")

/-- `deposit`: the event is emitted whether the precompile answers true or false. -/
def deposit (executor owner : Address) (exchange : Exchange) (subaccountID denom : String)
    (amount : Uint256) : Effects :=
  tryExchange "deposit" owner exchange (.deposit executor subaccountID denom amount) fun ok =>
    (.deposited subaccountID denom amount, .success ok)

/-- `withdraw`. -/
def withdraw (executor owner : Address) (exchange : Exchange) (subaccountID denom : String)
    (amount : Uint256) : Effects :=
  tryExchange "withdraw" owner exchange (.withdraw executor subaccountID denom amount) fun ok =>
    (.withdrawn subaccountID denom amount, .success ok)

def OrderArgs.order (args : OrderArgs) : SpotOrder where
  marketID := args.marketID
  subaccountID := args.subaccountID
  feeRecipient := args.feeRecipient
  price := args.price
  quantity := args.quantity
  cid := args.cid
  orderType := args.orderType
  triggerPrice := 0

/-- `placeSpotMarketOrder`. -/
def placeSpotMarketOrder (executor owner : Address) (exchange : Exchange) (args : OrderArgs) :
    Effects :=
  tryExchange "placeSpotMarketOrder" owner exchange (.createSpotMarketOrder executor args.order)
    fun resp => (.spotMarketOrderPlaced resp.orderHash args.marketID args.orderType args.price
      args.quantity args.cid, .orderHash resp.orderHash)

/-- `placeSpotLimitOrder`. -/
def placeSpotLimitOrder (executor owner : Address) (exchange : Exchange) (args : OrderArgs) :
    Effects :=
  tryExchange "placeSpotLimitOrder" owner exchange (.createSpotLimitOrder executor args.order)
    fun resp => (.spotLimitOrderPlaced resp.orderHash args.marketID args.orderType args.price
      args.quantity args.cid, .orderHash resp.orderHash)

/-- `subaccountBalance`, which anyone may call; a revert of the precompile is passed on. -/
def subaccountBalance (owner : Address) (exchange : Exchange) (subaccountID denom : String) :
    Effects :=
  match exchange (.subaccountDeposit subaccountID denom) with
  | .returns (available, total) =>
      ⟨owner, [], [.subaccountDeposit subaccountID denom], .ok (.balance available total)⟩
  | .reverts reason => revert owner [.subaccountDeposit subaccountID denom] reason

/-- The function that a call names, run by its sender. -/
def dispatch (executor owner sender : Address) (exchange : Exchange) : Entry → Effects
  | .receive => ⟨owner, [], [], .ok .nothing⟩
  | .exchange => ⟨owner, [], [], .ok (.address exchangeAddress)⟩
  | .owner => ⟨owner, [], [], .ok (.address owner)⟩
  | .transferOwnership newOwner => onlyOwner owner sender (transferOwnership owner newOwner)
  | .deposit subaccountID denom amount =>
      onlyOwner owner sender (deposit executor owner exchange subaccountID denom amount)
  | .withdraw subaccountID denom amount =>
      onlyOwner owner sender (withdraw executor owner exchange subaccountID denom amount)
  | .placeSpotMarketOrder args =>
      onlyOwner owner sender (placeSpotMarketOrder executor owner exchange args)
  | .placeSpotLimitOrder args =>
      onlyOwner owner sender (placeSpotLimitOrder executor owner exchange args)
  | .subaccountBalance subaccountID denom => subaccountBalance owner exchange subaccountID denom

/-- A call of the contract at the address `executor`, which `owner` owns. -/
def step (executor owner : Address) (call : Call) : Effects :=
  if call.value = 0 ∨ call.entry.payable then
    dispatch executor owner call.sender call.exchange call.entry
  else revert owner [] none

/-- A call of a trace, with the owner it meets. -/
structure Met where
  owner : Address
  call : Call

def Met.effects (executor : Address) (m : Met) : Effects := step executor m.owner m.call

/-- The calls of a trace, each with the owner that the calls before it have left. -/
def trace (executor owner : Address) : List Call → List Met
  | [] => []
  | call :: calls => ⟨owner, call⟩ :: trace executor (step executor owner call).owner calls

variable {executor owner sender : Address} {exchange : Exchange} {call : Call}

theorem trace_take (executor owner : Address) (calls : List Call) (moment : ℕ) :
    trace executor owner (calls.take moment) = (trace executor owner calls).take moment := by
  induction calls generalizing owner moment with
  | nil => simp [trace]
  | cons call calls ih =>
      cases moment with
      | zero => rfl
      | succ moment => rw [List.take_succ_cons, trace, trace, ih, List.take_succ_cons]

@[simp]
theorem onlyOwner_self (body : Effects) : onlyOwner owner owner body = body := if_pos rfl

theorem onlyOwner_of_ne (outside : sender ≠ owner) (body : Effects) :
    onlyOwner owner sender body = revert owner [] (some "SpotExecutor: not owner") :=
  if_neg outside

/-- Whatever the precompile answers, the request has reached it. -/
@[simp]
theorem requests_tryExchange (name : String) (owner : Address) (exchange : Exchange)
    (request : Request) (returned : request.Response → Event × Returned) :
    (tryExchange name owner exchange request returned).requests = [request] := by
  unfold tryExchange
  split <;> rfl

/-- The event is kept exactly when the precompile returns. -/
theorem events_tryExchange (name : String) (owner : Address) (exchange : Exchange)
    (request : Request) (returned : request.Response → Event × Returned) :
    (tryExchange name owner exchange request returned).events =
      ((exchange request).value?.map fun value => (returned value).1).toList := by
  unfold tryExchange
  split
  · next value answered => rw [answered]; rfl
  · next reason answered => rw [answered]; rfl
  · next answered => rw [answered]; rfl

/-- Reading a balance reaches the precompile and emits nothing. -/
theorem subaccountBalance_effects (owner : Address) (exchange : Exchange)
    (subaccountID denom : String) :
    (subaccountBalance owner exchange subaccountID denom).events = [] ∧
      (subaccountBalance owner exchange subaccountID denom).requests =
        [.subaccountDeposit subaccountID denom] := by
  unfold subaccountBalance
  split
  · exact ⟨rfl, rfl⟩
  · exact ⟨rfl, rfl⟩

end SpotExecutor

end SumplusTrader
