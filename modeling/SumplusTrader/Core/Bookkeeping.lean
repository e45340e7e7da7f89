import SumplusTrader.Core.Conservation
import SumplusTrader.Core.LiveTick

/-!
# What a tick books

This file follows an approved trade to the books. A tick that comes to a fill counts the trade,
and then leaves it to the booking whether the book moves at all. `counted_iff_booked` says when
the two agree; a sale of a token without a price is counted and moves nothing.

A live tick without a fill leaves the state alone: `no_phantom_fill`.
-/

namespace SumplusTrader

namespace Core

/-- What carrying out a judgement ends in, unless it raises: whether the trade counts as
executed, and the next state. -/
inductive Carried (state : State) (input : TickInput) (j : Judgement) (cid : String) :
    Bool → State → Prop where
  | held (idle : ¬j.approved) :
      Carried state input j cid false { state with pendingIntent := none }
  | simulated (approved : j.approved)
      (offline : ∀ executor, input.executor = some executor → executor.simulates) :
      Carried state input j cid true
        (settle { state with pendingIntent := none } j j.verdict.finalAmountUsd true)
  | answered (executor : Executor) (reply : ExecutionResult) (approved : j.approved)
      (live : input.executor = some executor) (sends : ¬executor.simulates)
      (answer : executor.execute j.decision j.verdict.finalAmountUsd cid = .ok reply) :
      Carried state input j cid reply.executed (settledState state j reply.executed)

section CarryOut

variable {state newState : State} {input : TickInput} {j : Judgement} {receipt : Receipt}
  {executor : Executor} {fx after : Effects} {executed : Bool}

/-- An order that is placed was sent and answered. -/
theorem answer_of_placeOrder {fails : Bool} {reply : ExecutionResult}
    (placed : placeOrder fx executor j receipt fails = (after, .ok reply)) :
    executor.execute j.decision j.verdict.finalAmountUsd (receiptCid receipt.hash) = .ok reply ∧
      Event.orderSent j.decision j.verdict.finalAmountUsd (receiptCid receipt.hash) ∈
        after.events := by
  constructor
  · rcases andThen_eq_ok placed with ⟨_, reply', sent, logged⟩
    rcases andThen_eq_ok logged with ⟨_, _, -, ended⟩
    simp only [Prod.mk.injEq, Except.ok.injEq] at ended
    rcases ended with ⟨-, rfl⟩
    exact (Prod.mk.inj sent).2
  · have sent := orderSent_mem_placeOrder fx executor j receipt fails
    rwa [placed] at sent

/-- Carrying out a judgement ends in one of the three ways; an order that a live executor has
answered is among the events. -/
theorem carried_of_carryOut
    (carried : carryOut fx state input j receipt = (after, .ok (executed, newState))) :
    Carried state input j (receiptCid receipt.hash) executed newState ∧
      (j.approved → ∀ executor, input.executor = some executor → ¬executor.simulates →
        Event.orderSent j.decision j.verdict.finalAmountUsd (receiptCid receipt.hash) ∈
          after.events) := by
  by_cases approved : j.approved
  · have approved' : ¬¬(j.verdict.allowed ∧ j.decision.isTrade) := not_not.2 approved
    rcases found : input.executor with _ | executor
    · have done : carryOut fx state input j receipt = (fx, .ok (true, settle
          { state with pendingIntent := none } j j.verdict.finalAmountUsd true)) := by
        rw [carryOut, if_neg approved', found]
      rw [done, Prod.mk.injEq, Except.ok.injEq, Prod.mk.injEq] at carried
      rcases carried with ⟨-, rfl, rfl⟩
      refine ⟨.simulated approved ?_, ?_⟩
      · intro executor live
        rw [found] at live
        cases live
      · intro _ executor live
        cases live
    · by_cases simulates : executor.simulates
      · unfold carryOut at carried
        rw [if_neg approved', found] at carried
        simp only [simulates, if_true] at carried
        rcases andThen_eq_ok carried with ⟨_, _, -, ended⟩
        simp only [Prod.mk.injEq, Except.ok.injEq] at ended
        rcases ended with ⟨-, rfl, rfl⟩
        have offline : ∀ other, some executor = some other → other.simulates := by
          rintro other ⟨⟩
          exact simulates
        refine ⟨.simulated approved (found ▸ offline), ?_⟩
        intro _ other live sends
        exact absurd (offline other live) sends
      · have placed : ∃ staged reply, placeOrder staged executor j receipt input.execLogFails =
            (after, .ok reply) ∧ executed = reply.executed ∧
              newState = settledState state j reply.executed := by
          rw [carryOut_live fx state receipt found simulates approved] at carried
          rcases persist : input.persist with _ | e | done
          · simp only [persist] at carried
            rcases andThen_eq_ok carried with ⟨_, reply, placed, ended⟩
            simp only [Prod.mk.injEq, Except.ok.injEq] at ended
            rcases ended with ⟨rfl, rfl, rfl⟩
            exact ⟨_, reply, placed, rfl, rfl⟩
          · simp [persist] at carried
          · simp only [persist] at carried
            rcases andThen_eq_ok carried with ⟨_, reply, placed, ended⟩
            simp only [Prod.mk.injEq, Except.ok.injEq] at ended
            rcases ended with ⟨rfl, rfl, rfl⟩
            exact ⟨_, reply, placed, rfl, rfl⟩
        rcases placed with ⟨staged, reply, placed, rfl, rfl⟩
        rcases answer_of_placeOrder placed with ⟨answer, sent⟩
        exact ⟨.answered executor reply approved found simulates answer, fun _ _ _ _ => sent⟩
  · have idle : carryOut fx state input j receipt =
        (fx, .ok (false, { state with pendingIntent := none })) := if_pos approved
    rw [idle, Prod.mk.injEq, Except.ok.injEq, Prod.mk.injEq] at carried
    rcases carried with ⟨-, rfl, rfl⟩
    exact ⟨.held approved, fun held => absurd held approved⟩

end CarryOut

/-- A tick that completes has prepared a judgement, appended its receipt and carried it out. -/
theorem carried_of_tick {world : World} {state newState : State} {input : TickInput}
    {after : Effects} {result : TickResult}
    (ticked : tick world state input = (after, .ok (result, newState))) :
    ∃ ph j log receipt, prepare world.configFile state input = .ok (ph, j) ∧
      ReceiptChain.append world.receipts (receiptArgs ph j) = .ok (log, receipt) ∧
      result = tickResult j receipt result.executed ∧
      Carried state input j (receiptCid receipt.hash) result.executed newState ∧
      (j.approved → ∀ executor, input.executor = some executor → ¬executor.simulates →
        Event.orderSent j.decision j.verdict.finalAmountUsd (receiptCid receipt.hash) ∈
          after.events) := by
  rcases tick_cases world state input with ⟨e, raised⟩ | ⟨ph, j, log, receipt, prepared, appended,
    acts⟩
  · simp [raised] at ticked
  · rcases andThen_eq_ok (acts.symm.trans ticked) with ⟨_, ⟨executed, state'⟩, carried, ended⟩
    simp only [Prod.mk.injEq, Except.ok.injEq] at ended
    rcases ended with ⟨rfl, rfl, rfl⟩
    rcases carried_of_carryOut carried with ⟨cases, sent⟩
    exact ⟨ph, j, log, receipt, prepared, appended, rfl, cases, sent⟩

end Core

/-- A fill moves both the quantity and the cash. A position that is empty before a sale is empty
after it, too, unless a negative amount makes it more than dust. -/
def FillMoves (state : State) (decision : Decision) (amountUsd : ℚ) (price : Dict String ℚ) :
    Prop :=
  FillBuys state decision amountUsd price ∧ amountUsd ≠ 0 ∨
    ∃ old, FillSells state decision price old ∧
      min old.qty (amountUsd / priceOrZero price decision.tradedSymbol) ≠ 0 ∧
      (old.qty = 0 → 1 / 1000000000 <
        old.left amountUsd (priceOrZero price decision.tradedSymbol))

/-- The quantity of the traded token and the cash have changed. -/
structure Booked (state newState : State) (decision : Decision) : Prop where
  qty : newState.qtyOf decision.tradedSymbol ≠ state.qtyOf decision.tradedSymbol
  cash : newState.stable ≠ state.stable

section Booking

variable {state : State} {decision : Decision} {amountUsd nowTs : ℚ} {price : Dict String ℚ}

theorem qty_boughtPosition (old : Option HeldPosition) (qty px nowTs : ℚ) :
    (boughtPosition old qty px nowTs).qty = (old.map HeldPosition.qty).getD 0 + qty := by
  cases old with
  | none => exact (zero_add qty).symm
  | some old => rfl

theorem FillBuys.booked_iff (fill : FillBuys state decision amountUsd price) :
    Booked state (applyFill state decision amountUsd price nowTs) decision ↔ amountUsd ≠ 0 := by
  have qty : (applyFill state decision amountUsd price nowTs).qtyOf decision.tradedSymbol =
      state.qtyOf decision.tradedSymbol +
        amountUsd / priceOrZero price decision.tradedSymbol := by
    rw [fill.applyFill_eq, State.qtyOf]
    dsimp only
    rw [Dict.get?_set_self, Option.map_some, Option.getD_some, qty_boughtPosition]
    rfl
  have cash : (applyFill state decision amountUsd price nowTs).stable =
      state.stable - amountUsd := by
    rw [fill.applyFill_eq]
    rfl
  constructor
  · rintro ⟨-, moved⟩ nothing
    rw [cash, nothing, sub_zero] at moved
    exact moved rfl
  · intro amount
    constructor
    · rw [qty, Ne, add_eq_left]
      exact div_ne_zero amount fill.priced.ne'
    · rw [cash, Ne, sub_eq_self]
      exact amount

theorem FillSells.booked_iff {old : HeldPosition} (fill : FillSells state decision price old) :
    Booked state (applyFill state decision amountUsd price nowTs) decision ↔
      min old.qty (amountUsd / priceOrZero price decision.tradedSymbol) ≠ 0 ∧
        (old.qty = 0 → 1 / 1000000000 <
          old.left amountUsd (priceOrZero price decision.tradedSymbol)) := by
  have before : state.qtyOf decision.tradedSymbol = old.qty := by
    rw [State.qtyOf, fill.held]
    rfl
  have qty : (applyFill state decision amountUsd price nowTs).qtyOf decision.tradedSymbol =
      if old.left amountUsd (priceOrZero price decision.tradedSymbol) ≤ 1 / 1000000000 then 0
      else old.left amountUsd (priceOrZero price decision.tradedSymbol) := by
    rw [fill.applyFill_eq, State.qtyOf]
    dsimp only
    rw [soldPositions]
    split
    · rw [Dict.get?_pop, if_pos rfl]
      rfl
    · rw [Dict.get?_set_self]
      rfl
  have cash : (applyFill state decision amountUsd price nowTs).stable = state.stable +
      min old.qty (amountUsd / priceOrZero price decision.tradedSymbol) *
        priceOrZero price decision.tradedSymbol := by
    rw [fill.applyFill_eq]
    rfl
  have paid : (applyFill state decision amountUsd price nowTs).stable ≠ state.stable ↔
      min old.qty (amountUsd / priceOrZero price decision.tradedSymbol) ≠ 0 := by
    rw [cash, Ne, add_eq_left, mul_eq_zero, not_or]
    exact and_iff_left fill.priced.ne'
  constructor
  · rintro ⟨moved, earned⟩
    refine ⟨paid.1 earned, ?_⟩
    intro empty
    rw [before, qty, empty] at moved
    split at moved
    · exact absurd rfl moved
    · next kept => exact not_le.1 kept
  · rintro ⟨sold, kept⟩
    refine ⟨?_, paid.2 sold⟩
    rw [before, qty]
    split
    · next dust =>
      intro empty
      exact absurd dust (not_le.2 (kept empty.symm))
    · rw [HeldPosition.left, Ne, sub_eq_self]
      exact sold

/-- A fill books the trade exactly when it moves the quantity and the cash. -/
theorem booked_applyFill_iff (state : State) (decision : Decision) (amountUsd : ℚ)
    (price : Dict String ℚ) (nowTs : ℚ) :
    Booked state (applyFill state decision amountUsd price nowTs) decision ↔
      FillMoves state decision amountUsd price := by
  unfold FillMoves
  rcases applyFill_cases state decision amountUsd price nowTs with
    buys | ⟨old, sells⟩ | ⟨noBuy, noSale, unchanged⟩
  · rw [buys.booked_iff]
    constructor
    · exact fun amount => .inl ⟨buys, amount⟩
    · rintro (⟨-, amount⟩ | ⟨old, sells, -⟩)
      · exact amount
      · cases buys.buys.symm.trans sells.sells
  · rw [sells.booked_iff]
    constructor
    · exact fun moves => .inr ⟨old, sells, moves⟩
    · rintro (⟨buys, -⟩ | ⟨other, found, moves⟩)
      · cases sells.sells.symm.trans buys.buys
      · have same : old = other := Option.some.inj (sells.held.symm.trans found.held)
        exact same ▸ moves
  · rw [unchanged]
    constructor
    · rintro ⟨moved, -⟩
      exact absurd rfl moved
    · rintro (⟨buys, -⟩ | ⟨old, sells, -⟩)
      · exact absurd buys noBuy
      · exact absurd ⟨old, sells⟩ noSale

end Booking

namespace Core

/-- The trade is counted. -/
structure Counted (state newState : State) (nowTs : ℚ) : Prop where
  week : state.tradesThisWeek < newState.tradesThisWeek
  last : newState.lastTradeTs = nowTs

/-- The trade of a judgement is let through, and the executor, if it sends orders, reports it as
executed. -/
structure ComesToFill (input : TickInput) (j : Judgement) (cid : String) : Prop where
  approved : j.approved
  executed : ∀ executor, input.executor = some executor → ¬executor.simulates →
    ∃ reply, executor.execute j.decision j.verdict.finalAmountUsd cid = .ok reply ∧
      reply.executed = true

section Counting

variable {state newState : State} {input : TickInput} {j : Judgement} {cid : String}
  {executed : Bool}

theorem Carried.comesToFill_iff (carried : Carried state input j cid executed newState) :
    ComesToFill input j cid ↔ executed = true := by
  cases carried with
  | held idle =>
      constructor
      · exact fun fills => absurd fills.approved idle
      · exact fun done => by cases done
  | simulated approved offline =>
      refine ⟨fun _ => rfl, fun _ => ⟨approved, ?_⟩⟩
      intro executor live sends
      exact absurd (offline executor live) sends
  | answered executor reply approved live sends answer =>
      constructor
      · rintro ⟨-, done⟩
        rcases done executor live sends with ⟨other, found, done⟩
        rw [answer, Except.ok.injEq] at found
        exact found ▸ done
      · intro done
        refine ⟨approved, ?_⟩
        intro other found _
        rw [live, Option.some.injEq] at found
        exact ⟨reply, found ▸ answer, done⟩

/-- The next state is the old one, renumbered, with the trade booked if it was executed. -/
theorem Carried.state_eq (carried : Carried state input j cid executed newState) :
    ∃ seq, newState = settle { state with pendingIntent := none, intentSeq := seq } j
      j.verdict.finalAmountUsd executed := by
  cases carried with
  | held => exact ⟨state.intentSeq, rfl⟩
  | simulated => exact ⟨state.intentSeq, rfl⟩
  | answered => exact ⟨state.intentSeq + 1, rfl⟩

theorem counted_settle_iff (state : State) (seq : ℤ) (j : Judgement) (amount : ℚ)
    (executed : Bool) :
    Counted state (settle { state with pendingIntent := none, intentSeq := seq } j amount
      executed) j.nowTs ↔ executed = true := by
  cases executed with
  | false =>
      constructor
      · exact fun counted => absurd counted.week (lt_irrefl _)
      · exact fun done => by cases done
  | true => exact ⟨fun _ => rfl, fun _ => ⟨lt_add_one _, rfl⟩⟩

/-- The number of the intent plays no part in a fill. -/
theorem fillMoves_renumbered_iff (state : State) (seq : ℤ) (decision : Decision) (amountUsd : ℚ)
    (price : Dict String ℚ) :
    FillMoves { state with pendingIntent := none, intentSeq := seq } decision amountUsd price ↔
      FillMoves state decision amountUsd price := by
  constructor
  · rintro (⟨⟨buys, priced, affordable⟩, moves⟩ | ⟨old, ⟨sells, held, priced⟩, moves⟩)
    · exact .inl ⟨⟨buys, priced, affordable⟩, moves⟩
    · exact .inr ⟨old, ⟨sells, held, priced⟩, moves⟩
  · rintro (⟨⟨buys, priced, affordable⟩, moves⟩ | ⟨old, ⟨sells, held, priced⟩, moves⟩)
    · exact .inl ⟨⟨buys, priced, affordable⟩, moves⟩
    · exact .inr ⟨old, ⟨sells, held, priced⟩, moves⟩

theorem booked_settle_iff (state : State) (seq : ℤ) (j : Judgement) (amount : ℚ)
    (executed : Bool) :
    Booked state (settle { state with pendingIntent := none, intentSeq := seq } j amount
      executed) j.decision ↔
        executed = true ∧ FillMoves state j.decision amount (priceMap j.views) := by
  cases executed with
  | false =>
      constructor
      · exact fun booked => absurd rfl booked.cash
      · rintro ⟨done, -⟩
        cases done
  | true =>
      rw [← fillMoves_renumbered_iff state seq, ← booked_applyFill_iff _ _ _ _ j.nowTs]
      exact ⟨fun booked => ⟨rfl, booked.qty, booked.cash⟩,
        fun booked => ⟨booked.2.qty, booked.2.cash⟩⟩

/-- **A trade is counted exactly when it is booked**, if and only if the fill that the tick comes
to, if it comes to one, moves the quantity and the cash. -/
theorem counted_iff_booked_iff (world : World) (state newState : State) (input : TickInput)
    (after : Effects) (result : TickResult)
    (ticked : tick world state input = (after, .ok (result, newState))) :
    ∃ ph j log receipt, prepare world.configFile state input = .ok (ph, j) ∧
      ReceiptChain.append world.receipts (receiptArgs ph j) = .ok (log, receipt) ∧
      ((Counted state newState j.nowTs ↔ Booked state newState j.decision) ↔
        (ComesToFill input j (receiptCid receipt.hash) →
          FillMoves state j.decision j.verdict.finalAmountUsd (priceMap j.views))) := by
  rcases carried_of_tick ticked with ⟨ph, j, log, receipt, prepared, appended, -, carried, -⟩
  refine ⟨ph, j, log, receipt, prepared, appended, ?_⟩
  rw [carried.comesToFill_iff]
  rcases carried.state_eq with ⟨seq, rfl⟩
  rw [counted_settle_iff, booked_settle_iff]
  exact iff_self_and

end Counting

/-- A tick whose feed has no view of anything. -/
def blindInput : TickInput := { rebalanceInput "USDT" with market := some ([], 1) }

/-- The counters, the quantity and the cash after a tick. -/
def booksAfter (state : State) (input : TickInput) : Option (ℤ × ℚ × ℚ × ℚ) :=
  (tick bareWorld state input).2.toOption.map fun ended =>
    (ended.2.tradesThisWeek, ended.2.lastTradeTs, ended.2.qtyOf "INJ", ended.2.stable)

/-- Without an executor, a rebalance out of a token that has no price is counted, and the book
stays as it is. -/
theorem unpriced_sale_counted : ∃ after result newState,
    tick bareWorld (hundredBook longBook 80) blindInput = (after, .ok (result, newState)) ∧
      result.decision.tradedSymbol = "INJ" ∧ Counted (hundredBook longBook 80) newState 1 ∧
      ¬Booked (hundredBook longBook 80) newState result.decision := by
  have books : booksAfter (hundredBook longBook 80) blindInput = some (1, 1, 1, 80) := by
    decide +kernel
  have sells : (tick bareWorld (hundredBook longBook 80) blindInput).2.toOption.map (fun ended =>
      ended.1.decision.tradedSymbol) = some "INJ" := by
    decide +kernel
  rcases Option.map_eq_some_iff.1 books with ⟨⟨result, newState⟩, ended, values⟩
  rw [ended, Option.map_some, Option.some.injEq] at sells
  simp only [Prod.mk.injEq] at values
  rcases values with ⟨week, last, qty, cash⟩
  refine ⟨_, result, newState, Prod.ext rfl (toOption_eq_some_iff.1 ended), sells, ⟨?_, last⟩, ?_⟩
  · rw [week]
    decide
  · rintro ⟨-, moved⟩
    rw [cash] at moved
    exact moved rfl

theorem counted_iff_booked_iff_entry : ∃ after result newState,
    tick bareWorld (hundredBook Dict.empty 100) (rebalanceInput "USDT") =
        (after, .ok (result, newState)) ∧
      ∃ ph j log receipt, prepare bareWorld.configFile (hundredBook Dict.empty 100)
          (rebalanceInput "USDT") = .ok (ph, j) ∧
        ReceiptChain.append bareWorld.receipts (receiptArgs ph j) = .ok (log, receipt) ∧
        ((Counted (hundredBook Dict.empty 100) newState j.nowTs ↔
            Booked (hundredBook Dict.empty 100) newState j.decision) ↔
          (ComesToFill (rebalanceInput "USDT") j (receiptCid receipt.hash) →
            FillMoves (hundredBook Dict.empty 100) j.decision j.verdict.finalAmountUsd
              (priceMap j.views))) := by
  have books : booksAfter (hundredBook Dict.empty 100) (rebalanceInput "USDT") =
      some (1, 1, 1, 80) := by
    decide +kernel
  rcases Option.map_eq_some_iff.1 books with ⟨⟨result, newState⟩, ended, -⟩
  have ticked : tick bareWorld (hundredBook Dict.empty 100) (rebalanceInput "USDT") =
      (_, .ok (result, newState)) := Prod.ext rfl (toOption_eq_some_iff.1 ended)
  exact ⟨_, result, newState, ticked, counted_iff_booked_iff bareWorld (hundredBook Dict.empty 100)
    newState (rebalanceInput "USDT") _ result ticked⟩

/-- The tick has handed an order to the executor. -/
def Attempts (fx : Effects) : Prop :=
  ∃ decision amount cid, Event.orderSent decision amount cid ∈ fx.events

/-- A tick ends in a hold, a rejection, or an order that was not executed. -/
def EndsWithoutFill (result : TickResult) : Prop :=
  result.intentAction = .hold ∨ result.verdict = .reject ∨ result.executed = false

theorem decision_of_prepare {configFile : Option String} {state : State} {input : TickInput}
    {ph : String} {j : Judgement} (prepared : prepare configFile state input = .ok (ph, j)) :
    j.decision = intentToDecision j.intent := by
  rcases prepare_eq_ok_iff.1 prepared with ⟨_, _, _, _, -, -, -, -, judged⟩
  rcases judge_eq_ok_iff.1 judged with ⟨_, _, _, -, -, -, rfl⟩
  rfl

/-- A hold is no trade, and a rejected trade is not let through. -/
theorem not_approved_of_held {j : Judgement} (same : j.decision = intentToDecision j.intent)
    (held : j.intent.action = .hold ∨ j.verdict.action = .reject) : ¬j.approved := by
  rintro ⟨allowed, trade, -⟩
  rcases held with holds | rejects
  · rw [same] at trade
    simp [intentToDecision, intentSide, holds] at trade
  · simp [PolicyVerdict.allowed, rejects] at allowed

/-- **A live tick without a fill leaves the state alone**, except for the pending intent, which is
cleared, and the number of the intent, which grows by one exactly when an order was attempted. -/
theorem no_phantom_fill (world : World) (state newState : State) (input : TickInput)
    (executor : Executor) (live : input.executor = some executor) (sends : ¬executor.simulates)
    (after : Effects) (result : TickResult)
    (ticked : tick world state input = (after, .ok (result, newState)))
    (ends : EndsWithoutFill result) :
    ∃ seq, newState = { state with pendingIntent := none, intentSeq := seq } ∧
      (Attempts after → seq = state.intentSeq + 1) ∧
      (¬Attempts after → seq = state.intentSeq) := by
  rcases carried_of_tick ticked with ⟨ph, j, log, receipt, prepared, -, shown, carried, sent⟩
  have action : result.intentAction = j.intent.action := by rw [shown]; rfl
  have verdict : result.verdict = j.verdict.action := by rw [shown]; rfl
  have only : Attempts after → j.approved := by
    rintro ⟨decision, amount, cid, mem⟩
    have mem : Event.orderSent decision amount cid ∈ (tick world state input).1.events := by
      rw [ticked]
      exact mem
    rcases mem_events_of_tick mem with ⟨ph', j', _, _, prepared', -, same | permitted⟩
    · cases same
    · rw [prepared, Except.ok.injEq, Prod.mk.injEq] at prepared'
      rcases prepared' with ⟨-, rfl⟩
      exact permitted.1
  unfold EndsWithoutFill at ends
  rw [action, verdict] at ends
  generalize result.executed = executed at carried ends
  cases carried with
  | held idle =>
      exact ⟨state.intentSeq, rfl, fun attempts => absurd (only attempts) idle, fun _ => rfl⟩
  | simulated approved offline => exact absurd (offline executor live) sends
  | answered other reply approved found sends answer =>
      have failed : reply.executed = false := by
        rcases ends with holds | rejects | failed
        · exact absurd approved
            (not_approved_of_held (decision_of_prepare prepared) (.inl holds))
        · exact absurd approved
            (not_approved_of_held (decision_of_prepare prepared) (.inr rejects))
        · exact failed
      have attempts : Attempts after := ⟨_, _, _, sent approved other found sends⟩
      refine ⟨state.intentSeq + 1, ?_, fun _ => rfl, fun idle => absurd attempts idle⟩
      rw [failed]
      rfl

/-- An executor whose orders are not executed. -/
def refusingExecutor : Executor where
  backend := {
    acceptsCid := false
    getQuote := fun _ => .error .osError
    executeSwap := fun _ => .ok ⟨false, false, ⟨.null, trivial⟩, some "slippage"⟩ }
  mode := "live"
  slippageBps := 50

def refusedInput : TickInput := { rebalanceInput "USDT" with executor := some refusingExecutor }

theorem no_phantom_fill_refused : ∃ after result newState,
    tick bareWorld (hundredBook Dict.empty 100) refusedInput = (after, .ok (result, newState)) ∧
      ∃ seq, newState =
          { hundredBook Dict.empty 100 with pendingIntent := none, intentSeq := seq } ∧
        (Attempts after → seq = (hundredBook Dict.empty 100).intentSeq + 1) ∧
        (¬Attempts after → seq = (hundredBook Dict.empty 100).intentSeq) := by
  have failed : (tick bareWorld (hundredBook Dict.empty 100) refusedInput).2.toOption.map
      (fun ended => (ended.1.decision.side, ended.1.verdict, ended.1.executed)) =
        some (.buy, .allow, false) := by
    decide +kernel
  rcases Option.map_eq_some_iff.1 failed with ⟨⟨result, newState⟩, ended, values⟩
  have ticked : tick bareWorld (hundredBook Dict.empty 100) refusedInput =
      (_, .ok (result, newState)) := Prod.ext rfl (toOption_eq_some_iff.1 ended)
  simp only [Prod.mk.injEq] at values
  exact ⟨_, result, newState, ticked, no_phantom_fill bareWorld (hundredBook Dict.empty 100)
    newState refusedInput refusingExecutor rfl (by decide) _ result ticked
    (.inr (.inr values.2.2))⟩

end Core

end SumplusTrader
