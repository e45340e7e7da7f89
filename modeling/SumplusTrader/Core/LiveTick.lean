import SumplusTrader.Core.TickCases

/-!
# Ticks with a live executor

This file says once what a tick with a live executor and a persistence callback can do.
It raises before it has staged anything, it holds, or it stages the intent, sends one order
and then either raises or settles it. `liveTick` states the snapshot on disk, the outward
events and the result of each case; the proofs about the live loop start from it.
-/

namespace SumplusTrader

/-- The events that the outside can see: staging an intent and sending an order. -/
def Event.outward : Event → Bool
  | .intentPersisted _ => true
  | .orderSent .. => true
  | _ => false

def Effects.outward (fx : Effects) : List Event := fx.events.filter Event.outward

namespace Core

/-- The state that is staged before an order is sent. -/
def stagedState (state : State) (j : Judgement) : State :=
  { state with
    intentSeq := state.intentSeq + 1
    pendingIntent := some (pendingIntent state j j.verdict.finalAmountUsd) }

/-- The state after the order of a judgement, executed or not. -/
def settledState (state : State) (j : Judgement) (executed : Bool) : State :=
  settle { state with pendingIntent := none, intentSeq := state.intentSeq + 1 } j
    j.verdict.finalAmountUsd executed

/-- How the executor answers an order: it raises, its result cannot be read, or it is
executed or not. -/
inductive Answer (executor : Executor) (j : Judgement) (cid : String) : Option Bool → Prop where
  | raised (e : PyError)
      (answered : executor.execute j.decision j.verdict.finalAmountUsd cid = .error e) :
      Answer executor j cid none
  | unreadable (result : ExecutionResult) (e : PyError)
      (answered : executor.execute j.decision j.verdict.finalAmountUsd cid = .ok result)
      (unreadable : isInjective result.detail.tree = .error e) : Answer executor j cid none
  | read (result : ExecutionResult)
      (answered : executor.execute j.decision j.verdict.finalAmountUsd cid = .ok result) :
      Answer executor j cid (some result.executed)

/-- A tick has an order to stage and to send: an approved judgement, its receipt appended,
and a callback that does not raise. -/
structure Orders (world : World) (state : State) (input : TickInput) (j : Judgement)
    (cid : String) : Prop where
  judged : ∃ ph log receipt, prepare world.configFile state input = .ok (ph, j) ∧
    ReceiptChain.append world.receipts (receiptArgs ph j) = .ok (log, receipt) ∧
    cid = receiptCid receipt.hash
  approved : j.approved
  stages : input.persist = some (.ok ())

/-- What a tick with a live executor can do. -/
inductive LiveTick (world : World) (state : State) (input : TickInput) (executor : Executor)
    (fx : Effects) : Except PyError (TickResult × State) → Prop where
  | early (e : PyError) (idle : ∀ j cid, ¬Orders world state input j cid)
      (snapshot : fx.world.snapshot = world.snapshot) (outward : fx.outward = []) :
      LiveTick world state input executor fx (.error e)
  | held (result : TickResult) (idle : ∀ j cid, ¬Orders world state input j cid)
      (snapshot : fx.world.snapshot = world.snapshot) (outward : fx.outward = []) :
      LiveTick world state input executor fx (.ok (result, { state with pendingIntent := none }))
  | failed (j : Judgement) (cid : String) (e : PyError) (orders : Orders world state input j cid)
      (snapshot : fx.world.snapshot = some (stagedState state j))
      (outward : fx.outward = [.intentPersisted (pendingIntent state j j.verdict.finalAmountUsd),
        .orderSent j.decision j.verdict.finalAmountUsd cid])
      (answer : Answer executor j cid none) : LiveTick world state input executor fx (.error e)
  | settled (j : Judgement) (cid : String) (executed : Bool) (result : TickResult)
      (orders : Orders world state input j cid)
      (snapshot : fx.world.snapshot = some (stagedState state j))
      (outward : fx.outward = [.intentPersisted (pendingIntent state j j.verdict.finalAmountUsd),
        .orderSent j.decision j.verdict.finalAmountUsd cid])
      (answer : Answer executor j cid (some executed)) :
      LiveTick world state input executor fx (.ok (result, settledState state j executed))

section

variable {world : World} {state : State} {input : TickInput} {j : Judgement} {receipt : Receipt}
  {executor : Executor}

theorem outward_bookAbstention (fx : Effects) (j : Judgement) :
    (bookAbstention fx j).outward = fx.outward := by
  unfold bookAbstention
  split
  · rfl
  · simp [Effects.outward, Event.outward]

theorem snapshot_bookAbstention (fx : Effects) (j : Judgement) :
    (bookAbstention fx j).world.snapshot = fx.world.snapshot := by
  unfold bookAbstention
  split <;> rfl

/-- Binding an order to its receipt keeps the snapshot and the outward events, and raises
only when the detail cannot be read. -/
theorem logExecution_cases (fx : Effects) (receipt : Receipt) (cid : String) (j : Judgement)
    (result : ExecutionResult) (fails : Bool) :
    (logExecution fx receipt cid j result fails).1.world.snapshot = fx.world.snapshot ∧
      (logExecution fx receipt cid j result fails).1.outward = fx.outward ∧
      ((logExecution fx receipt cid j result fails).2 = .ok () ∨
        ∃ e, isInjective result.detail.tree = .error e ∧
          (logExecution fx receipt cid j result fails).2 = .error e) := by
  unfold logExecution
  split
  · next e unreadable => exact ⟨rfl, rfl, .inr ⟨e, unreadable, rfl⟩⟩
  · exact ⟨rfl, rfl, .inl rfl⟩
  · split
    · exact ⟨rfl, by simp [Effects.outward, Event.outward], .inl rfl⟩
    · exact ⟨rfl, by simp [Effects.outward, Event.outward], .inl rfl⟩

/-- Placing an order sends it, and then raises or reads the answer. -/
theorem placeOrder_cases (fx : Effects) (executor : Executor) (j : Judgement) (receipt : Receipt)
    (fails : Bool) :
    (placeOrder fx executor j receipt fails).1.world.snapshot = fx.world.snapshot ∧
      (placeOrder fx executor j receipt fails).1.outward = fx.outward ++
        [.orderSent j.decision j.verdict.finalAmountUsd (receiptCid receipt.hash)] ∧
      ((∃ e, (placeOrder fx executor j receipt fails).2 = .error e ∧
          Answer executor j (receiptCid receipt.hash) none) ∨
        ∃ result, (placeOrder fx executor j receipt fails).2 = .ok result ∧
          Answer executor j (receiptCid receipt.hash) (some result.executed)) := by
  unfold placeOrder sendOrder
  rcases answered : executor.execute j.decision j.verdict.finalAmountUsd (receiptCid receipt.hash)
    with e | result
  · simp only [answered, andThen]
    refine ⟨trivial, ?_, .inl ⟨e, rfl, .raised e answered⟩⟩
    simp [Effects.outward, Event.outward]
  · simp only [answered, andThen]
    have logged := logExecution_cases
      { fx with events := fx.events ++
        [.orderSent j.decision j.verdict.finalAmountUsd (receiptCid receipt.hash)] } receipt
      (receiptCid receipt.hash) j result fails
    rcases logged with ⟨snapshot, outward, ended⟩
    have sent : (fx.events ++ [Event.orderSent j.decision j.verdict.finalAmountUsd
        (receiptCid receipt.hash)]).filter Event.outward = fx.outward ++
          [.orderSent j.decision j.verdict.finalAmountUsd (receiptCid receipt.hash)] := by
      simp [Effects.outward, Event.outward]
    revert snapshot outward ended
    generalize logExecution _ _ _ _ _ _ = part
    intro snapshot outward ended
    rcases part with ⟨after, e | done⟩
    · rcases ended with done | ⟨e', unreadable, -⟩
      · simp at done
      · exact ⟨snapshot, outward.trans sent, .inl ⟨e, rfl, .unreadable result e' answered
          unreadable⟩⟩
    · exact ⟨snapshot, outward.trans sent, .inr ⟨result, rfl, .read result answered⟩⟩

theorem orderSent_mem_placeOrder (fx : Effects) (executor : Executor) (j : Judgement)
    (receipt : Receipt) (fails : Bool) :
    .orderSent j.decision j.verdict.finalAmountUsd (receiptCid receipt.hash) ∈
      (placeOrder fx executor j receipt fails).1.events := by
  have sent : .orderSent j.decision j.verdict.finalAmountUsd (receiptCid receipt.hash) ∈
      (placeOrder fx executor j receipt fails).1.outward := by
    rw [(placeOrder_cases fx executor j receipt fails).2.1]
    exact List.mem_append_right _ (List.mem_singleton_self _)
  exact (List.mem_filter.1 sent).1

/-- The effects after the intent of a judgement is staged. -/
def stagedEffects (fx : Effects) (state : State) (j : Judgement) : Effects where
  world := { fx.world with snapshot := some (stagedState state j) }
  events := fx.events ++ [.intentPersisted (pendingIntent state j j.verdict.finalAmountUsd)]

theorem outward_stagedEffects (fx : Effects) (state : State) (j : Judgement) :
    (stagedEffects fx state j).outward = fx.outward ++
      [.intentPersisted (pendingIntent state j j.verdict.finalAmountUsd)] := by
  have kept : [Event.intentPersisted (pendingIntent state j j.verdict.finalAmountUsd)].filter
      Event.outward = [.intentPersisted (pendingIntent state j j.verdict.finalAmountUsd)] := rfl
  rw [Effects.outward, stagedEffects, List.filter_append, kept]
  rfl

theorem carryOut_live (fx : Effects) (state : State) (receipt : Receipt)
    (live : input.executor = some executor) (sends : ¬executor.simulates) (approved : j.approved) :
    carryOut fx state input j receipt =
      match input.persist with
      | some (.error e) => (fx, .error e)
      | some (.ok ()) =>
          andThen (placeOrder (stagedEffects fx state j) executor j receipt input.execLogFails)
            fun fx result => (fx, .ok (result.executed, settledState state j result.executed))
      | none =>
          andThen (placeOrder fx executor j receipt input.execLogFails)
            fun fx result => (fx, .ok (result.executed, settledState state j result.executed)) := by
  have approved' : ¬¬(j.verdict.allowed ∧ j.decision.isTrade) := not_not.2 approved
  unfold carryOut
  rw [if_neg approved', live]
  simp only [sends, if_false]
  rcases input.persist with _ | e | done <;> rfl

/-- An approved trade is staged and sent, or it cannot be staged. -/
theorem carryOut_live_cases (fx : Effects) (state : State) (receipt : Receipt)
    (live : input.executor = some executor) (sends : ¬executor.simulates)
    (persists : input.persist.isSome) (approved : j.approved) :
    (input.persist ≠ some (.ok ()) ∧ ∃ e, carryOut fx state input j receipt = (fx, .error e)) ∨
      input.persist = some (.ok ()) ∧
        (carryOut fx state input j receipt).1.world.snapshot = some (stagedState state j) ∧
        (carryOut fx state input j receipt).1.outward = fx.outward ++
          [.intentPersisted (pendingIntent state j j.verdict.finalAmountUsd),
            .orderSent j.decision j.verdict.finalAmountUsd (receiptCid receipt.hash)] ∧
        ((∃ e, (carryOut fx state input j receipt).2 = .error e ∧
            Answer executor j (receiptCid receipt.hash) none) ∨
          ∃ executed, (carryOut fx state input j receipt).2 =
              .ok (executed, settledState state j executed) ∧
            Answer executor j (receiptCid receipt.hash) (some executed)) := by
  rw [carryOut_live fx state receipt live sends approved]
  rcases persist : input.persist with _ | e | done
  · simp [persist] at persists
  · exact .inl ⟨by simp, e, rfl⟩
  · refine .inr ⟨rfl, ?_⟩
    have placed := placeOrder_cases (stagedEffects fx state j) executor j receipt
      input.execLogFails
    rw [outward_stagedEffects, List.append_assoc] at placed
    simp only [andThen]
    generalize placeOrder (stagedEffects fx state j) executor j receipt input.execLogFails =
      part at placed ⊢
    rcases part with ⟨after, e | result⟩
    · rcases placed with ⟨snapshot, outward, ⟨e', -, answer⟩ | ⟨result, done, -⟩⟩
      · exact ⟨snapshot, outward, .inl ⟨e, rfl, answer⟩⟩
      · simp at done
    · rcases placed with ⟨snapshot, outward, ⟨e', raised, -⟩ | ⟨result', done, answer⟩⟩
      · simp at raised
      · rw [Except.ok.injEq] at done
        subst done
        exact ⟨snapshot, outward, .inr ⟨result.executed, rfl, answer⟩⟩

/-- The only order of a tick is that of its judgement. -/
theorem orders_iff {ph : String} {log : List Char} {j' : Judgement} {cid : String}
    (prepared : prepare world.configFile state input = .ok (ph, j))
    (appended : ReceiptChain.append world.receipts (receiptArgs ph j) = .ok (log, receipt)) :
    Orders world state input j' cid ↔ j' = j ∧ cid = receiptCid receipt.hash ∧ j.approved ∧
      input.persist = some (.ok ()) := by
  constructor
  · rintro ⟨⟨ph', log', receipt', prepared', appended', rfl⟩, approved, stages⟩
    rw [prepared, Except.ok.injEq, Prod.mk.injEq] at prepared'
    rcases prepared' with ⟨rfl, rfl⟩
    rw [appended, Except.ok.injEq, Prod.mk.injEq] at appended'
    rcases appended' with ⟨-, rfl⟩
    exact ⟨rfl, rfl, approved, stages⟩
  · rintro ⟨rfl, rfl, approved, stages⟩
    exact ⟨⟨ph, log, receipt, prepared, appended, rfl⟩, approved, stages⟩

/-- What is done once the receipt of a judgement is appended. -/
theorem act_live {ph : String} {log : List Char}
    (prepared : prepare world.configFile state input = .ok (ph, j))
    (appended : ReceiptChain.append world.receipts (receiptArgs ph j) = .ok (log, receipt))
    (live : input.executor = some executor) (sends : ¬executor.simulates)
    (persists : input.persist.isSome) :
    LiveTick world state input executor
      (act ⟨{ world with receipts := log }, [.receiptAppended receipt]⟩ state input j receipt).1
      (act ⟨{ world with receipts := log }, [.receiptAppended receipt]⟩ state input j receipt).2 := by
  have booked := snapshot_bookAbstention
    ⟨{ world with receipts := log }, [.receiptAppended receipt]⟩ j
  have quiet := outward_bookAbstention
    ⟨{ world with receipts := log }, [.receiptAppended receipt]⟩ j
  unfold act
  generalize bookAbstention ⟨{ world with receipts := log }, [.receiptAppended receipt]⟩ j =
    noted at booked quiet ⊢
  have nothing : noted.outward = [] := quiet
  by_cases approved : j.approved
  · have carried := carryOut_live_cases noted state receipt live sends persists approved
    rw [nothing] at carried
    generalize carryOut noted state input j receipt = part at carried ⊢
    rcases carried with ⟨unstaged, e, rfl⟩ | ⟨stages, snapshot, outward, ended⟩
    · refine .early e ?_ booked nothing
      intro j' cid orders
      exact unstaged orders.stages
    · have orders : Orders world state input j (receiptCid receipt.hash) :=
        (orders_iff prepared appended).2 ⟨rfl, rfl, approved, stages⟩
      rcases part with ⟨after, e | ⟨executed, newState⟩⟩
      · rcases ended with ⟨e', -, answer⟩ | ⟨executed, done, -⟩
        · exact .failed j _ e orders snapshot outward answer
        · simp at done
      · rcases ended with ⟨e', raised, -⟩ | ⟨executed', done, answer⟩
        · simp at raised
        · simp only [Except.ok.injEq, Prod.mk.injEq] at done
          rcases done with ⟨rfl, rfl⟩
          exact .settled j _ executed _ orders snapshot outward answer
  · have idle : carryOut noted state input j receipt =
        (noted, .ok (false, { state with pendingIntent := none })) := if_pos approved
    rw [idle]
    refine .held _ ?_ booked nothing
    intro j' cid orders
    exact approved ((orders_iff prepared appended).1 orders).2.2.1

/-- A tick with a live executor and a callback ends in one of these ways. -/
theorem liveTick (world : World) (state : State) (live : input.executor = some executor)
    (sends : ¬executor.simulates) (persists : input.persist.isSome) :
    LiveTick world state input executor (tick world state input).1 (tick world state input).2 := by
  rcases prepared : prepare world.configFile state input with e | ⟨ph, j⟩
  · have raised : tick world state input = (⟨world, []⟩, .error e) := by
      simp only [tick, prepared]
    rw [raised]
    refine .early e ?_ rfl rfl
    rintro j cid ⟨⟨ph, log, receipt, prepared', -⟩, -⟩
    simp [prepared] at prepared'
  · rcases appended : ReceiptChain.append world.receipts (receiptArgs ph j) with e | ⟨log, receipt⟩
    · have raised : tick world state input = (⟨world, []⟩, .error e) := by
        simp only [tick, prepared, appended]
      rw [raised]
      refine .early e ?_ rfl rfl
      rintro j' cid ⟨⟨ph', log, receipt, prepared', appended', -⟩, -⟩
      rw [prepared, Except.ok.injEq, Prod.mk.injEq] at prepared'
      rcases prepared' with ⟨rfl, rfl⟩
      simp [appended] at appended'
    · rw [tick_of_prepare prepared appended]
      exact act_live prepared appended live sends persists

end

end Core

end SumplusTrader
