import Mathlib.Algebra.BigOperators.Group.List.Basic
import Mathlib.Data.Int.Basic
import SumplusTrader.Contracts.SpotExecutor

/-!
# Custody of the execution contract

This file compares the custody events of the contract with the transfers that the exchange has
accepted, over traces of calls by any senders under any behaviour of the precompile.

The precompile reports success in two ways: it does not revert, and it answers true. The contract
emits its event after the first, so a transfer that is answered with false is emitted without
having happened. `emitted_eq` says what one call adds to both sides, and the laws of traces sum
it up.

Of the functions that reach the precompile only the reading of a balance is open to everyone.
-/

namespace SumplusTrader

namespace SpotExecutor

/-- The amount that a request moves into a subaccount, negative for a withdrawal. -/
def Request.net (subaccountID denom : String) : Request → ℤ
  | .deposit _ account coin amount =>
      if account = subaccountID ∧ coin = denom then amount.toNat else 0
  | .withdraw _ account coin amount =>
      if account = subaccountID ∧ coin = denom then -amount.toNat else 0
  | _ => 0

/-- The amount of a `Deposited` event, and that of a `Withdrawn` event with the other sign. -/
def Event.net (subaccountID denom : String) : Event → ℤ
  | .deposited account coin amount =>
      if account = subaccountID ∧ coin = denom then amount.toNat else 0
  | .withdrawn account coin amount =>
      if account = subaccountID ∧ coin = denom then -amount.toNat else 0
  | _ => 0

/-- The boolean that the precompile returns to a deposit or a withdrawal. -/
def Exchange.verdict (exchange : Exchange) : Request → Option Bool
  | .deposit sender account coin amount => (exchange (.deposit sender account coin amount)).value?
  | .withdraw sender account coin amount =>
      (exchange (.withdraw sender account coin amount)).value?
  | _ => none

/-- What a request moves if the precompile answers it with a boolean. -/
def Exchange.moved (exchange : Exchange) (verdict : Bool) (subaccountID denom : String)
    (request : Request) : ℤ :=
  if exchange.verdict request = some verdict then request.net subaccountID denom else 0

/-- The request for a transfer that an owner's call makes. -/
def Entry.transfer? (executor : Address) : Entry → Option Request
  | .deposit account coin amount => some (.deposit executor account coin amount)
  | .withdraw account coin amount => some (.withdraw executor account coin amount)
  | _ => none

def Entry.readsBalance : Entry → Bool
  | .subaccountBalance _ _ => true
  | _ => false

namespace Met

/-- The custody events of a call, deposits minus withdrawals. -/
def emitted (executor : Address) (subaccountID denom : String) (m : Met) : ℤ :=
  ((m.effects executor).events.map (Event.net subaccountID denom)).sum

/-- The transfers of a call that the precompile accepts, deposits minus withdrawals. -/
def accepted (executor : Address) (subaccountID denom : String) (m : Met) : ℤ :=
  ((m.effects executor).requests.map (m.call.exchange.moved true subaccountID denom)).sum

/-- The transfer that the owner asks for and that the precompile answers with false. -/
def refused (executor : Address) (subaccountID denom : String) (m : Met) : ℤ :=
  if m.call.sender = m.owner ∧ m.call.value = 0 then
    ((m.call.entry.transfer? executor).map
      (m.call.exchange.moved false subaccountID denom)).getD 0
  else 0

/-- Someone other than the owner reads a balance. -/
def ReadFromOutside (m : Met) : Prop :=
  m.call.sender ≠ m.owner ∧ m.call.value = 0 ∧ m.call.entry.readsBalance = true

end Met

/-- The events of a trace match what the exchange accepted, and only the owner is served. -/
structure CustodyMatches (executor owner : Address) (calls : List Call) : Prop where
  balance : ∀ subaccountID denom,
    ((trace executor owner calls).map (Met.emitted executor subaccountID denom)).sum =
      ((trace executor owner calls).map (Met.accepted executor subaccountID denom)).sum
  outsiders : ∀ m ∈ trace executor owner calls, m.call.sender ≠ m.owner →
    (m.effects executor).events = [] ∧ (m.effects executor).requests = []

variable {executor owner sender : Address} {exchange : Exchange} {m : Met} {entry : Entry}
  {subaccountID denom : String}

/-- A function that is not for the sender does nothing, apart from the reading of a balance. -/
theorem dispatch_outside (executor : Address) (exchange : Exchange) (entry : Entry)
    (outside : sender ≠ owner) :
    (dispatch executor owner sender exchange entry).events = [] ∧
      ((dispatch executor owner sender exchange entry).requests = [] ↔
        entry.readsBalance = false) := by
  cases entry with
  | receive | exchange | owner => exact ⟨rfl, by simp [dispatch, Entry.readsBalance]⟩
  | subaccountBalance account coin =>
      have effects := subaccountBalance_effects owner exchange account coin
      refine ⟨effects.1, ?_⟩
      rw [dispatch, effects.2]
      simp [Entry.readsBalance]
  | transferOwnership | deposit | withdraw | placeSpotMarketOrder | placeSpotLimitOrder =>
      -- the guard reverts before the function is entered
      rw [dispatch, onlyOwner_of_ne outside]
      exact ⟨rfl, by simp [revert, Entry.readsBalance]⟩

theorem Entry.eq_receive (pays : entry.payable = true) : entry = .receive := by
  cases entry with
  | receive => rfl
  | _ => cases pays

theorem step_of_accepts (call : Call) (accepts : call.value = 0 ∨ call.entry.payable) :
    step executor owner call = dispatch executor owner call.sender call.exchange call.entry :=
  if_pos accepts

theorem step_of_value (call : Call) (refuses : ¬(call.value = 0 ∨ call.entry.payable)) :
    step executor owner call = revert owner [] none :=
  if_neg refuses

/-- Someone else's call does nothing, except that it may read a balance. -/
theorem outside_idle_iff (outside : m.call.sender ≠ m.owner) :
    ((m.effects executor).events = [] ∧ (m.effects executor).requests = []) ↔
      ¬m.ReadFromOutside := by
  rw [Met.effects, Met.ReadFromOutside]
  by_cases accepts : m.call.value = 0 ∨ m.call.entry.payable
  · rw [step_of_accepts m.call accepts]
    have idle := dispatch_outside executor m.call.exchange m.call.entry outside
    rw [idle.2]
    constructor
    · rintro ⟨-, other⟩ ⟨-, -, reads⟩
      rw [reads] at other
      cases other
    · intro apart
      refine ⟨idle.1, ?_⟩
      cases reads : m.call.entry.readsBalance with
      | false => rfl
      | true =>
          rcases accepts with free | pays
          · exact absurd ⟨outside, free, reads⟩ apart
          · rw [Entry.eq_receive pays] at reads
            cases reads
  · rw [step_of_value m.call accepts]
    constructor
    · rintro - ⟨-, free, -⟩
      exact accepts (Or.inl free)
    · rintro -
      exact ⟨rfl, rfl⟩

/-- A transfer moves its amount when the precompile returns, accepted or refused. -/
theorem moved_add_moved (exchange : Exchange) (subaccountID denom : String) (request : Request) :
    exchange.moved true subaccountID denom request +
        exchange.moved false subaccountID denom request =
      if (exchange request).value?.isSome then request.net subaccountID denom else 0 := by
  have either : ∀ (verdict : Option Bool) (net : ℤ),
      (if verdict = some true then net else 0) + (if verdict = some false then net else 0) =
        if verdict.isSome then net else 0 := by
    intro verdict net
    rcases verdict with _ | _ | _ <;> simp
  cases request with
  | deposit sender account coin amount => exact either _ _
  | withdraw sender account coin amount => exact either _ _
  | subaccountDeposit account coin => simp [Exchange.moved, Exchange.verdict, Request.net]
  | createSpotMarketOrder sender order => simp [Exchange.moved, Exchange.verdict, Request.net]
  | createSpotLimitOrder sender order => simp [Exchange.moved, Exchange.verdict, Request.net]

/-- The events of a guarded request count what is moved, accepted or refused. -/
theorem tryExchange_net (name : String) (owner : Address) (exchange : Exchange)
    (request : Request) (returned : request.Response → Event × Returned)
    (same : ∀ value, (returned value).1.net subaccountID denom = request.net subaccountID denom) :
    ((tryExchange name owner exchange request returned).events.map
        (Event.net subaccountID denom)).sum =
      ((tryExchange name owner exchange request returned).requests.map
        (exchange.moved true subaccountID denom)).sum +
          exchange.moved false subaccountID denom request := by
  rw [requests_tryExchange, List.map_singleton, List.sum_singleton, moved_add_moved,
    events_tryExchange]
  cases (exchange request).value? with
  | none => rfl
  | some value => simp [same]

/-- What a function of the owner emits is what it moves, accepted or refused. -/
theorem dispatch_net (executor owner : Address) (exchange : Exchange) (entry : Entry)
    (subaccountID denom : String) :
    ((dispatch executor owner owner exchange entry).events.map (Event.net subaccountID denom)).sum =
      ((dispatch executor owner owner exchange entry).requests.map
        (exchange.moved true subaccountID denom)).sum +
          ((entry.transfer? executor).map (exchange.moved false subaccountID denom)).getD 0 := by
  cases entry with
  | receive | exchange | owner => rfl
  | transferOwnership newOwner =>
      rw [dispatch, onlyOwner_self, transferOwnership]
      split <;> rfl
  | deposit | withdraw | placeSpotMarketOrder | placeSpotLimitOrder =>
      rw [dispatch, onlyOwner_self]
      exact tryExchange_net _ _ _ _ _ fun _ => rfl
  | subaccountBalance account coin =>
      have effects := subaccountBalance_effects owner exchange account coin
      rw [dispatch, effects.1, effects.2]
      rfl

/-- Requests that the precompile does not answer with a boolean move nothing. -/
theorem dispatch_outside_moved (outside : sender ≠ owner) (subaccountID denom : String) :
    ((dispatch executor owner sender exchange entry).requests.map
      (exchange.moved true subaccountID denom)).sum = 0 := by
  cases reads : entry.readsBalance with
  | false =>
      rw [(dispatch_outside executor exchange entry outside).2.2 reads]
      rfl
  | true =>
      cases entry with
      | subaccountBalance account coin =>
          rw [dispatch, (subaccountBalance_effects owner exchange account coin).2]
          rfl
      | _ => cases reads

/-- A call emits what the precompile accepts of it, and what the precompile refuses. -/
theorem emitted_eq (executor : Address) (subaccountID denom : String) (m : Met) :
    m.emitted executor subaccountID denom =
      m.accepted executor subaccountID denom + m.refused executor subaccountID denom := by
  rw [Met.emitted, Met.accepted, Met.refused, Met.effects]
  by_cases accepts : m.call.value = 0 ∨ m.call.entry.payable
  · rw [step_of_accepts m.call accepts]
    by_cases inside : m.call.sender = m.owner
    · rw [inside, dispatch_net]
      rcases accepts with free | pays
      · rw [if_pos ⟨rfl, free⟩]
      · rw [Entry.eq_receive pays]
        simp [Entry.transfer?]
    · rw [(dispatch_outside _ _ _ inside).1, dispatch_outside_moved inside, if_neg (fun h => inside h.1)]
      rfl
  · rw [step_of_value m.call accepts, if_neg (fun h => accepts (Or.inl h.2))]
    rfl

/-- Over a trace the events exceed what is accepted by what is refused. -/
theorem sum_emitted (executor : Address) (subaccountID denom : String) (calls : List Met) :
    (calls.map (Met.emitted executor subaccountID denom)).sum =
      (calls.map (Met.accepted executor subaccountID denom)).sum +
        (calls.map (Met.refused executor subaccountID denom)).sum := by
  induction calls with
  | nil => rfl
  | cons m calls ih =>
      rw [List.map_cons, List.map_cons, List.map_cons, List.sum_cons, List.sum_cons,
        List.sum_cons, ih, emitted_eq]
      omega

/-- The custody of a trace is in order exactly when its refusals cancel out and no one else
reads a balance. -/
theorem custodyMatches_iff_refused (executor owner : Address) (calls : List Call) :
    CustodyMatches executor owner calls ↔
      (∀ subaccountID denom,
        ((trace executor owner calls).map (Met.refused executor subaccountID denom)).sum = 0) ∧
      ∀ m ∈ trace executor owner calls, ¬m.ReadFromOutside := by
  constructor
  · intro holds
    constructor
    · intro subaccountID denom
      have summed := sum_emitted executor subaccountID denom (trace executor owner calls)
      rw [holds.balance subaccountID denom] at summed
      omega
    · intro m mem reads
      exact (outside_idle_iff reads.1).1 (holds.outsiders m mem reads.1) reads
  · rintro ⟨cancelled, unread⟩
    constructor
    · intro subaccountID denom
      rw [sum_emitted, cancelled, add_zero]
    · intro m mem outside
      exact (outside_idle_iff outside).2 (unread m mem)

/-- The parts of a list all sum up to zero when there is nothing but zeros in it. -/
theorem sum_take_eq_zero_iff (values : List ℤ) :
    (∀ moment, (values.take moment).sum = 0) ↔ ∀ value ∈ values, value = 0 := by
  induction values with
  | nil => simp
  | cons value values ih =>
      rw [List.forall_mem_cons, ← ih]
      constructor
      · intro parts
        have first : value = 0 := by simpa using parts 1
        refine ⟨first, fun moment => ?_⟩
        have next := parts (moment + 1)
        rwa [List.take_succ_cons, List.sum_cons, first, zero_add] at next
      · rintro ⟨rfl, parts⟩ moment
        cases moment with
        | zero => rfl
        | succ moment => rw [List.take_succ_cons, List.sum_cons, parts, zero_add]

/-- **The custody events of a trace match the exchange** exactly when its refusals cancel out, and
at every moment of it exactly when the owner is refused nothing; no one else reads a balance. -/
theorem custodyMatches_iff (executor owner : Address) (calls : List Call) :
    (CustodyMatches executor owner calls ↔
      (∀ subaccountID denom,
        ((trace executor owner calls).map (Met.refused executor subaccountID denom)).sum = 0) ∧
      ∀ m ∈ trace executor owner calls, ¬m.ReadFromOutside) ∧
    ((∀ moment, CustodyMatches executor owner (calls.take moment)) ↔
      ∀ m ∈ trace executor owner calls,
        (∀ subaccountID denom, m.refused executor subaccountID denom = 0) ∧
          ¬m.ReadFromOutside) := by
  refine ⟨custodyMatches_iff_refused executor owner calls, ?_⟩
  constructor
  · intro always
    have parts : ∀ moment, _ := fun moment =>
      (custodyMatches_iff_refused executor owner (calls.take moment)).1 (always moment)
    have whole := parts calls.length
    rw [List.take_length] at whole
    intro m mem
    refine ⟨fun subaccountID denom => ?_, whole.2 m mem⟩
    have zeros := (sum_take_eq_zero_iff
      ((trace executor owner calls).map (Met.refused executor subaccountID denom))).1 (by
        intro moment
        rw [← List.map_take, ← trace_take]
        exact (parts moment).1 subaccountID denom)
    exact zeros _ (List.mem_map_of_mem mem)
  · intro each moment
    have within : ∀ m ∈ trace executor owner (calls.take moment), m ∈ trace executor owner calls := by
      intro m mem
      rw [trace_take] at mem
      exact List.mem_of_mem_take mem
    apply (custodyMatches_iff_refused executor owner (calls.take moment)).2
    constructor
    · intro subaccountID denom
      apply List.sum_eq_zero
      intro value mem
      rcases List.mem_map.1 mem with ⟨m, met, rfl⟩
      exact (each m (within m met)).1 subaccountID denom
    · intro m mem
      exact (each m (within m mem)).2

/-- A precompile that answers every transfer with false and reverts otherwise. -/
def refusing : Exchange
  | .deposit _ _ _ _ => .returns false
  | .withdraw _ _ _ _ => .returns false
  | _ => .reverts none

/-- A deposit that is answered with false is emitted, and a stranger's reading of a balance
reaches the precompile. -/
theorem refused_deposit_emitted :
    ¬CustodyMatches 0xE (deploy 0xA).owner [⟨0xA, 0, .deposit "0x01" "inj" 5, refusing⟩] ∧
      ¬CustodyMatches 0xE (deploy 0xA).owner
        [⟨0xB, 0, .subaccountBalance "0x01" "inj", refusing⟩] := by
  constructor
  · intro holds
    exact absurd (holds.balance "0x01" "inj") (by decide +kernel)
  · intro holds
    have idle := (holds.outsiders _ List.mem_cons_self (by decide)).2
    cases idle

end SpotExecutor

end SumplusTrader
