import SumplusTrader.Core.Tick

/-!
# What a tick can do

This file says once what each part of a tick can do, so that the invariants of a
tick are case analyses over these statements. `judge_eq_ok_iff` and
`prepare_eq_ok_iff` open a judgement into its reads; `carryOut_state` gives the next
state, which is the old book or the book with one fill; `carryOut_effects` gives
what an approved trade does to the outside.
-/

namespace SumplusTrader

namespace Core

section Judge

variable {cfg : Config} {state : State} {views : List TokenView} {dataTs nowTs wall : ℚ}
  {j : Judgement}

theorem judge_eq_ok_iff : judge cfg state views dataTs nowTs wall = .ok j ↔
    ∃ chain quote intent, tradeChain cfg.chains = .ok chain ∧ firstQuote cfg = .ok quote ∧
      Survival.decide views (buildPortfolioState state views wall) cfg nowTs quote chain =
        .ok intent ∧ judgement cfg state views dataTs nowTs wall intent = j := by
  rw [judge, bind_eq_ok_iff]
  apply exists_congr
  intro chain
  simp only [bind_eq_ok_iff, pure, Except.pure, Except.ok.injEq, exists_and_left]

end Judge

theorem readConfig_eq_ok_iff {json : Json} {cfg : Config} :
    readConfig json = .ok cfg ↔ Config.ofJson json = some cfg := by
  unfold readConfig
  split <;> simp_all

theorem prepare_eq_ok_iff {configFile : Option String} {state : State} {input : TickInput}
    {ph : String} {j : Judgement} : prepare configFile state input = .ok (ph, j) ↔
    ∃ json cfg views dataTs, enforcedConfig configFile input.cfg = .ok json ∧
      committedPolicyHash configFile = .ok ph ∧ Config.ofJson json = some cfg ∧
      marketData cfg input = .ok (views, dataTs) ∧
      judge cfg state views dataTs (enforcedNow input.nowTs input.clock) input.stateClock =
        .ok j := by
  simp only [prepare, bind_eq_ok_iff, readConfig_eq_ok_iff, pure, Except.pure, Except.ok.injEq,
    Prod.exists, Prod.mk.injEq]
  constructor
  · rintro ⟨json, enforced, ph, committed, cfg, read, views, dataTs, market, j, judged, rfl, rfl⟩
    exact ⟨json, cfg, views, dataTs, enforced, committed, read, market, judged⟩
  · rintro ⟨json, cfg, views, dataTs, enforced, committed, read, market, judged⟩
    exact ⟨json, enforced, ph, committed, cfg, read, views, dataTs, market, j, judged, rfl, rfl⟩

end Core

/-- The verdict lets the decision through, and the decision is a trade. -/
def Judgement.approved (j : Judgement) : Prop := j.verdict.allowed ∧ j.decision.isTrade

instance (j : Judgement) : Decidable j.approved := inferInstanceAs (Decidable (_ ∧ _))

/-- What the rest of a tick may do to the outside once its receipt is written. -/
def Judgement.Permits (j : Judgement) (receipt : Receipt) : Event → Prop
  | .receiptAppended _ => False
  | .abstentionRecorded _ => True
  | .intentPersisted _ => j.approved
  | .orderSent decision amount cid =>
      j.approved ∧ decision = j.decision ∧ amount = j.verdict.finalAmountUsd ∧
        cid = receiptCid receipt.hash
  | .executionLogged _ => j.approved
  | .executionLogFailed => j.approved

namespace Core

/-- The second effects continue the first with permitted events, and leave the
configuration and the receipts alone. -/
structure Extends (j : Judgement) (receipt : Receipt) (fx fx' : Effects) : Prop where
  configFile : fx'.world.configFile = fx.world.configFile
  receipts : fx'.world.receipts = fx.world.receipts
  events : ∃ later, fx'.events = fx.events ++ later ∧ ∀ event ∈ later, j.Permits receipt event

/-- At most one record was added to the execution log, and only for an approved trade. -/
def LogsAtMostOne (j : Judgement) (receipt : Receipt) (fx fx' : Effects) : Prop :=
  fx'.world.executions = fx.world.executions ∨
    j.approved ∧ ∃ executed detail error, fx'.world.executions =
      ExecLog.recordExecution fx.world.executions
        (ExecLog.executionRecord receipt.seq receipt.hash (receiptCid receipt.hash)
          (Py.isoText j.nowTs) executed (JsonValue.tree detail) error)

section Effects

variable {j : Judgement} {receipt : Receipt} {fx fx' fx'' : Effects}

theorem Extends.refl : Extends j receipt fx fx :=
  ⟨rfl, rfl, [], (List.append_nil _).symm, by simp⟩

theorem Extends.trans (first : Extends j receipt fx fx') (second : Extends j receipt fx' fx'') :
    Extends j receipt fx fx'' := by
  rcases first.events with ⟨earlier, eventsEarlier, permittedEarlier⟩
  rcases second.events with ⟨later, eventsLater, permittedLater⟩
  refine ⟨second.configFile.trans first.configFile, second.receipts.trans first.receipts,
    earlier ++ later, ?_, ?_⟩
  · rw [eventsLater, eventsEarlier, List.append_assoc]
  · intro event mem
    rcases List.mem_append.1 mem with early | late
    · exact permittedEarlier event early
    · exact permittedLater event late

/-- One more permitted event. -/
theorem Extends.single {event : Event} (configFile : fx'.world.configFile = fx.world.configFile)
    (receipts : fx'.world.receipts = fx.world.receipts)
    (events : fx'.events = fx.events ++ [event]) (permitted : j.Permits receipt event) :
    Extends j receipt fx fx' := by
  refine ⟨configFile, receipts, [event], events, ?_⟩
  intro other mem
  rw [List.mem_singleton] at mem
  exact mem ▸ permitted

theorem bookAbstention_extends (fx : Effects) : Extends j receipt fx (bookAbstention fx j) := by
  unfold bookAbstention
  split
  · exact .refl
  · exact .single rfl rfl rfl trivial

theorem bookAbstention_executions :
    (bookAbstention fx j).world.executions = fx.world.executions := by
  unfold bookAbstention
  split <;> rfl

theorem stageIntent_extends (approved : j.approved) (state : State) (pending : PendingIntent)
    (persist : Option (Except PyError Unit)) :
    Extends j receipt fx (stageIntent fx state pending persist).1 := by
  unfold stageIntent
  split
  · exact .refl
  · exact .refl
  · exact .single rfl rfl rfl approved

theorem stageIntent_executions (state : State) (pending : PendingIntent)
    (persist : Option (Except PyError Unit)) :
    (stageIntent fx state pending persist).1.world.executions = fx.world.executions := by
  unfold stageIntent
  split <;> rfl

theorem sendOrder_extends (approved : j.approved) (executor : Executor) :
    Extends j receipt fx
      (sendOrder fx executor j j.verdict.finalAmountUsd (receiptCid receipt.hash)).1 :=
  .single rfl rfl rfl ⟨approved, rfl, rfl, rfl⟩

theorem logExecution_extends (approved : j.approved) (result : ExecutionResult) (fails : Bool) :
    Extends j receipt fx
      (logExecution fx receipt (receiptCid receipt.hash) j result fails).1 := by
  unfold logExecution
  split
  · exact .refl
  · exact .refl
  · split
    · exact .single rfl rfl rfl approved
    · exact .single rfl rfl rfl approved

theorem logExecution_logsAtMostOne (approved : j.approved) (result : ExecutionResult)
    (fails : Bool) :
    LogsAtMostOne j receipt fx
      (logExecution fx receipt (receiptCid receipt.hash) j result fails).1 := by
  unfold logExecution
  split
  · exact .inl rfl
  · exact .inl rfl
  · split
    · exact .inl rfl
    · exact .inr ⟨approved, result.executed, result.detail, result.error, rfl⟩

theorem LogsAtMostOne.after (unchanged : fx'.world.executions = fx.world.executions)
    (logged : LogsAtMostOne j receipt fx' fx'') : LogsAtMostOne j receipt fx fx'' := by
  unfold LogsAtMostOne at logged ⊢
  rwa [unchanged] at logged

theorem andThen_extends {α β : Type} {part : Effects × Except PyError α}
    {next : Effects → α → Effects × Except PyError β} (first : Extends j receipt fx part.1)
    (second : ∀ a, Extends j receipt part.1 (next part.1 a).1) :
    Extends j receipt fx (andThen part next).1 := by
  rcases part with ⟨after, e | a⟩
  · exact first
  · exact first.trans (second a)

theorem andThen_logsAtMostOne {α β : Type} {part : Effects × Except PyError α}
    {next : Effects → α → Effects × Except PyError β}
    (unchanged : part.1.world.executions = fx.world.executions)
    (second : ∀ a, LogsAtMostOne j receipt part.1 (next part.1 a).1) :
    LogsAtMostOne j receipt fx (andThen part next).1 := by
  rcases part with ⟨after, e | a⟩
  · exact .inl unchanged
  · exact LogsAtMostOne.after unchanged (second a)

theorem andThen_pure {α β : Type} (part : Effects × Except PyError α) (value : α → β) :
    (andThen part fun fx a => (fx, .ok (value a))).1 = part.1 := by
  rcases part with ⟨after, e | a⟩ <;> rfl

theorem placeOrder_extends (approved : j.approved) (executor : Executor) (fails : Bool) :
    Extends j receipt fx (placeOrder fx executor j receipt fails).1 := by
  apply andThen_extends (sendOrder_extends approved executor)
  intro result
  rw [andThen_pure]
  exact logExecution_extends approved result fails

theorem placeOrder_logsAtMostOne (approved : j.approved) (executor : Executor) (fails : Bool) :
    LogsAtMostOne j receipt fx (placeOrder fx executor j receipt fails).1 := by
  apply andThen_logsAtMostOne rfl
  intro result
  rw [andThen_pure]
  exact logExecution_logsAtMostOne approved result fails

end Effects

section CarryOut

variable {state : State} {input : TickInput} {j : Judgement} {receipt : Receipt}

theorem carryOut_extends (fx : Effects) :
    Extends j receipt fx (carryOut fx state input j receipt).1 := by
  unfold carryOut
  split
  · exact .refl
  · next notHeld =>
    have approved : j.approved := not_not.1 notHeld
    split
    · exact .refl
    · next executor _ =>
      split
      · rw [andThen_pure]
        exact placeOrder_extends approved executor input.execLogFails
      · apply andThen_extends (stageIntent_extends approved _ _ _)
        intro _
        rw [andThen_pure]
        exact placeOrder_extends approved executor input.execLogFails

theorem carryOut_logsAtMostOne (fx : Effects) (state : State) (input : TickInput)
    (j : Judgement) (receipt : Receipt) :
    LogsAtMostOne j receipt fx (carryOut fx state input j receipt).1 := by
  unfold carryOut
  split
  · exact .inl rfl
  · next notHeld =>
    have approved : j.approved := not_not.1 notHeld
    split
    · exact .inl rfl
    · next executor _ =>
      split
      · rw [andThen_pure]
        exact placeOrder_logsAtMostOne approved executor input.execLogFails
      · apply andThen_logsAtMostOne (stageIntent_executions _ _ _)
        intro _
        rw [andThen_pure]
        exact placeOrder_logsAtMostOne approved executor input.execLogFails

theorem andThen_eq_ok {α β : Type} {part : Effects × Except PyError α}
    {next : Effects → α → Effects × Except PyError β} {fx : Effects} {b : β}
    (done : andThen part next = (fx, .ok b)) :
    ∃ after a, part = (after, .ok a) ∧ next after a = (fx, .ok b) := by
  rcases part with ⟨after, e | a⟩
  · simp [andThen] at done
  · exact ⟨after, a, rfl, done⟩

/-- The next state is the old one, renumbered, with the approved trade booked if it
was executed. -/
theorem carryOut_state {fx after : Effects} {executed : Bool} {newState : State}
    (carried : carryOut fx state input j receipt = (after, .ok (executed, newState))) :
    ∃ seq, newState = settle { state with pendingIntent := none, intentSeq := seq } j
      j.verdict.finalAmountUsd executed ∧ (executed = true → j.approved) := by
  unfold carryOut at carried
  split at carried
  · simp only [Prod.mk.injEq, Except.ok.injEq] at carried
    rcases carried with ⟨-, rfl, rfl⟩
    exact ⟨state.intentSeq, rfl, by simp⟩
  · next notHeld =>
    have approved : j.approved := not_not.1 notHeld
    split at carried
    · simp only [Prod.mk.injEq, Except.ok.injEq] at carried
      rcases carried with ⟨-, rfl, rfl⟩
      exact ⟨state.intentSeq, rfl, fun _ => approved⟩
    · split at carried
      · rcases andThen_eq_ok carried with ⟨_, _, -, ended⟩
        simp only [Prod.mk.injEq, Except.ok.injEq] at ended
        rcases ended with ⟨-, rfl, rfl⟩
        exact ⟨state.intentSeq, rfl, fun _ => approved⟩
      · rcases andThen_eq_ok carried with ⟨_, _, -, placed⟩
        rcases andThen_eq_ok placed with ⟨_, _, -, ended⟩
        simp only [Prod.mk.injEq, Except.ok.injEq] at ended
        rcases ended with ⟨-, rfl, rfl⟩
        exact ⟨_, rfl, fun _ => approved⟩

end CarryOut

section Tick

variable {world : World} {state : State} {input : TickInput}

theorem act_extends (fx : Effects) (state : State) (input : TickInput) (j : Judgement)
    (receipt : Receipt) :
    Extends j receipt fx (act fx state input j receipt).1 := by
  apply (bookAbstention_extends fx).trans
  apply andThen_extends (carryOut_extends _)
  intro _
  exact ⟨rfl, rfl, [], (List.append_nil _).symm, by simp⟩

theorem act_logsAtMostOne (fx : Effects) (state : State) (input : TickInput) (j : Judgement)
    (receipt : Receipt) :
    LogsAtMostOne j receipt fx (act fx state input j receipt).1 := by
  apply LogsAtMostOne.after bookAbstention_executions
  have carried := carryOut_logsAtMostOne (bookAbstention fx j) state input j receipt
  unfold act
  revert carried
  rcases carryOut (bookAbstention fx j) state input j receipt with ⟨after, e | done⟩
  · exact id
  · exact id

theorem act_state {fx after : Effects} {j : Judgement} {receipt : Receipt} {result : TickResult}
    {newState : State} (acted : act fx state input j receipt = (after, .ok (result, newState))) :
    ∃ seq, result.decision = j.decision ∧
      newState = settle { state with pendingIntent := none, intentSeq := seq } j
        j.verdict.finalAmountUsd result.executed ∧ (result.executed = true → j.approved) := by
  rcases andThen_eq_ok acted with ⟨_, ⟨executed, state'⟩, carried, ended⟩
  simp only [Prod.mk.injEq, Except.ok.injEq] at ended
  rcases ended with ⟨-, rfl, rfl⟩
  rcases carryOut_state carried with ⟨seq, booked⟩
  exact ⟨seq, rfl, booked⟩

/-- A tick raises before it writes anything, or it appends the receipt of its
judgement and then acts on the judgement. -/
theorem tick_cases (world : World) (state : State) (input : TickInput) :
    (∃ e, tick world state input = (⟨world, []⟩, .error e)) ∨
      ∃ ph j log receipt, prepare world.configFile state input = .ok (ph, j) ∧
        ReceiptChain.append world.receipts (receiptArgs ph j) = .ok (log, receipt) ∧
        tick world state input =
          act ⟨{ world with receipts := log }, [.receiptAppended receipt]⟩ state input j
            receipt := by
  unfold tick
  split
  · exact .inl ⟨_, rfl⟩
  · next ph j prepared =>
    split
    · exact .inl ⟨_, rfl⟩
    · next log receipt appended => exact .inr ⟨ph, j, log, receipt, prepared, appended, rfl⟩

/-- An event of a tick is the append of its receipt, or one that the judgement permits. -/
theorem mem_events_of_tick {event : Event} (mem : event ∈ (tick world state input).1.events) :
    ∃ ph j log receipt, prepare world.configFile state input = .ok (ph, j) ∧
      ReceiptChain.append world.receipts (receiptArgs ph j) = .ok (log, receipt) ∧
      (event = .receiptAppended receipt ∨ j.Permits receipt event) := by
  rcases tick_cases world state input with ⟨e, raised⟩ |
    ⟨ph, j, log, receipt, prepared, appended, acts⟩
  · simp [raised] at mem
  · rw [acts] at mem
    rcases (act_extends _ state input j receipt).events with ⟨later, events, permitted⟩
    rw [events, List.singleton_append, List.mem_cons] at mem
    exact ⟨ph, j, log, receipt, prepared, appended, mem.imp_right (permitted event)⟩

theorem tick_of_prepare {ph : String} {j : Judgement} {log : List Char} {receipt : Receipt}
    (prepared : prepare world.configFile state input = .ok (ph, j))
    (appended : ReceiptChain.append world.receipts (receiptArgs ph j) = .ok (log, receipt)) :
    tick world state input =
      act ⟨{ world with receipts := log }, [.receiptAppended receipt]⟩ state input j receipt := by
  simp only [tick, prepared, appended]

/-- A tick that completes has prepared a judgement, and its next state is the old one
with the approved trade booked if it was executed. -/
theorem tick_state {after : Effects} {result : TickResult} {newState : State}
    (ticked : tick world state input = (after, .ok (result, newState))) :
    ∃ ph j seq, prepare world.configFile state input = .ok (ph, j) ∧
      result.decision = j.decision ∧
      newState = settle { state with pendingIntent := none, intentSeq := seq } j
        j.verdict.finalAmountUsd result.executed ∧ (result.executed = true → j.approved) := by
  rcases tick_cases world state input with ⟨e, raised⟩ | ⟨ph, j, log, receipt, prepared, -, acts⟩
  · simp [raised] at ticked
  · rcases act_state (acts.symm.trans ticked) with ⟨seq, booked⟩
    exact ⟨ph, j, seq, prepared, booked⟩

theorem configFile_tick (world : World) (state : State) (input : TickInput) :
    (tick world state input).1.world.configFile = world.configFile := by
  rcases tick_cases world state input with ⟨e, raised⟩ | ⟨ph, j, log, receipt, -, -, acts⟩
  · rw [raised]
  · rw [acts]
    exact (act_extends _ state input j receipt).configFile

end Tick

end Core

end SumplusTrader
