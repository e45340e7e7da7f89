import SumplusTrader.Core.PublicVerifier
import SumplusTrader.Transition.Run

/-!
# The logs at every crash point

A tick writes its receipt, hands an order over and binds the order to the receipt, and the process
may die between any two of these effects. This file performs the effects of the ticks of a run one
at a time against the logs on disk, with deaths and restarts in between.

`Places` says in which order the effects of a tick come. `run_worldAfter` is the run in which
nothing dies, and `audited_at_every_point` is about every run: the receipts on disk
authorise what was sent, and what the execution log tells was sent.
-/

namespace SumplusTrader

/-- What an effect does to the two logs. -/
def World.write (world : World) : Event → World
  | .receiptAppended receipt =>
      { world with receipts := Json.appendLine world.receipts receipt.toDict }
  | .executionLogged record =>
      { world with executions := ExecLog.recordExecution world.executions record }
  | .abstentionRecorded _ | .intentPersisted _ | .orderSent _ _ _ | .executionLogFailed => world

/-- A world with other contents apart from its logs. -/
def World.besides (world elsewhere : World) : World :=
  { elsewhere with receipts := world.receipts, executions := world.executions }

def Event.receipt? : Event → Option Receipt
  | .receiptAppended receipt => some receipt
  | _ => none

def Event.cid? : Event → Option String
  | .orderSent _ _ cid => some cid
  | _ => none

def Event.execution? : Event → Option ExecutionRecord
  | .executionLogged record => some record
  | _ => none

/-- The receipts that a history appended, the client ids that it sent and the executions that it
logged. -/
def receiptsOf (history : List Event) : List Receipt := history.filterMap Event.receipt?

def sentCids (history : List Event) : List String := history.filterMap Event.cid?

def executionsOf (history : List Event) : List ExecutionRecord :=
  history.filterMap Event.execution?

/-- The process with the effects that its tick has yet to perform. -/
structure Recorder where
  world : World
  todo : List Event

/-- `others` is whatever happens to the files besides the logs. -/
inductive Recorder.Action where
  | call (turn : Turn)
  | perform
  | die
  | others (elsewhere : World)

namespace Core

def record (recorder : Recorder) : Recorder.Action → Option (Recorder × List Event)
  | .call turn =>
      match recorder.todo with
      | [] => some ({ recorder with todo := (takeTurn recorder.world turn).1.events }, [])
      | _ => none
  | .perform =>
      match recorder.todo with
      | event :: todo => some (⟨recorder.world.write event, todo⟩, [event])
      | [] => none
  | .die => some ({ recorder with todo := [] }, [])
  | .others elsewhere => some ({ recorder with world := recorder.world.besides elsewhere }, [])

/-- Every tick finds the same configuration file. -/
def underFile (configFile : Option String) (_ : Recorder) : Recorder.Action → Bool
  | .call turn => turn.configFile = configFile
  | _ => true

/-- After an order, at most its binding to the receipt. -/
def Binds (receipt : Receipt) : List Event → Prop
  | [] => True
  | [.executionLogged record] => record.receiptHash = receipt.hash ∧
      record.cid = receiptCid receipt.hash ∧ record.toDict.DistinctKeys
  | [.executionLogFailed] => True
  | _ => False

/-- After a receipt, at most one order, which the receipt lets through. -/
def Places (receipt : Receipt) : List Event → Prop
  | [] => True
  | .abstentionRecorded _ :: todo => Places receipt todo
  | .intentPersisted _ :: todo => Places receipt todo
  | .orderSent decision _ cid :: todo => receipt.isTrade = true ∧
      receipt.decision = decision.toJson ∧ cid = receiptCid receipt.hash ∧ Binds receipt todo
  | _ => False

/-- The effects go on with some more, which write to the logs what the world shows. -/
structure Performs (fx fx' : Effects) (later : List Event) : Prop where
  events : fx'.events = fx.events ++ later
  receipts : fx'.world.receipts = (later.foldl World.write fx.world).receipts
  executions : fx'.world.executions = (later.foldl World.write fx.world).executions

section Order

variable {world world' : World} {state : State} {input : TickInput} {j : Judgement}
  {receipt : Receipt} {fx fx' fx'' : Effects} {early later : List Event}

/-- What is written depends on the logs alone. -/
theorem foldl_write_congr (receipts : world'.receipts = world.receipts)
    (executions : world'.executions = world.executions) (events : List Event) :
    (events.foldl World.write world').receipts = (events.foldl World.write world).receipts ∧
      (events.foldl World.write world').executions =
        (events.foldl World.write world).executions := by
  induction events generalizing world world' with
  | nil => exact ⟨receipts, executions⟩
  | cons event events ih =>
      refine ih ?_ ?_
      · cases event <;> simp [World.write, receipts]
      · cases event <;> simp [World.write, executions]

theorem Performs.refl (fx : Effects) : Performs fx fx [] := ⟨by simp, rfl, rfl⟩

theorem Performs.trans (first : Performs fx fx' early) (second : Performs fx' fx'' later) :
    Performs fx fx'' (early ++ later) := by
  have same := foldl_write_congr first.receipts first.executions later
  refine ⟨?_, ?_, ?_⟩
  · rw [second.events, first.events, List.append_assoc]
  · rw [second.receipts, same.1, List.foldl_append]
  · rw [second.executions, same.2, List.foldl_append]

theorem performs_bookAbstention (fx : Effects) (j : Judgement) :
    ∃ later, Performs fx (bookAbstention fx j) later ∧
      ∀ todo, Places receipt todo → Places receipt (later ++ todo) := by
  unfold bookAbstention
  split
  · exact ⟨[], .refl fx, fun _ => id⟩
  · exact ⟨[_], ⟨rfl, rfl, rfl⟩, fun _ => id⟩

theorem performs_stageIntent (fx : Effects) (state : State) (pending : PendingIntent)
    (persist : Option (Except PyError Unit)) :
    ∃ later, Performs fx (stageIntent fx state pending persist).1 later ∧
      ∀ todo, Places receipt todo → Places receipt (later ++ todo) := by
  unfold stageIntent
  split
  · exact ⟨[], .refl fx, fun _ => id⟩
  · exact ⟨[], .refl fx, fun _ => id⟩
  · exact ⟨[_], ⟨rfl, rfl, rfl⟩, fun _ => id⟩

theorem performs_logExecution (fx : Effects) (seq : receipt.seq.DistinctKeys)
    (result : ExecutionResult) (fails : Bool) :
    ∃ later, Binds receipt later ∧ Performs fx
      (logExecution fx receipt (receiptCid receipt.hash) j result fails).1 later := by
  unfold logExecution
  split
  · exact ⟨[], trivial, .refl fx⟩
  · exact ⟨[], trivial, .refl fx⟩
  · split
    · exact ⟨[.executionLogFailed], trivial, rfl, rfl, rfl⟩
    · have binds : Binds receipt [.executionLogged (ExecLog.executionRecord receipt.seq receipt.hash
          (receiptCid receipt.hash) (Py.isoText j.nowTs) result.executed result.detail.tree
          result.error)] :=
        ⟨rfl, rfl, distinctKeys_executionRecord seq _ _ _ _ _ _⟩
      exact ⟨_, binds, rfl, rfl, rfl⟩

theorem performs_placeOrder (fx : Effects) (seq : receipt.seq.DistinctKeys)
    (trade : receipt.isTrade = true) (decision : receipt.decision = j.decision.toJson)
    (executor : Executor) (fails : Bool) :
    ∃ later, Places receipt later ∧
      Performs fx (placeOrder fx executor j receipt fails).1 later := by
  have sends : Performs fx (sendOrder fx executor j j.verdict.finalAmountUsd
      (receiptCid receipt.hash)).1
      [.orderSent j.decision j.verdict.finalAmountUsd (receiptCid receipt.hash)] :=
    ⟨rfl, rfl, rfl⟩
  have places : ∀ todo, Binds receipt todo → Places receipt
      (.orderSent j.decision j.verdict.finalAmountUsd (receiptCid receipt.hash) :: todo) :=
    fun todo binds => ⟨trade, decision, rfl, binds⟩
  unfold placeOrder
  dsimp only
  rcases sent : sendOrder fx executor j j.verdict.finalAmountUsd (receiptCid receipt.hash) with
    ⟨after, e | result⟩
  · rw [sent] at sends
    exact ⟨_, places [] trivial, sends⟩
  · rw [sent] at sends
    rcases performs_logExecution (j := j) after seq result fails with ⟨later, binds, logs⟩
    refine ⟨_, places later binds, ?_⟩
    have logged := sends.trans logs
    rw [← andThen_pure _ fun _ => result] at logged
    exact logged

/-- Going on after some effects that leave the order of the rest alone. -/
theorem performs_andThen {α β : Type} {part : Effects × Except PyError α}
    {next : Effects → α → Effects × Except PyError β} (first : Performs fx part.1 early)
    (keeps : ∀ todo, Places receipt todo → Places receipt (early ++ todo))
    (second : ∀ a, ∃ later, Places receipt later ∧ Performs part.1 (next part.1 a).1 later) :
    ∃ later, Places receipt later ∧ Performs fx (andThen part next).1 later := by
  rcases part with ⟨after, e | a⟩
  · exact ⟨early, by simpa using keeps [] trivial, first⟩
  · rcases second a with ⟨later, places, performs⟩
    exact ⟨early ++ later, keeps later places, first.trans performs⟩

theorem performs_carryOut (fx : Effects) (state : State) (input : TickInput)
    (seq : receipt.seq.DistinctKeys) (trade : j.approved → receipt.isTrade = true)
    (decision : receipt.decision = j.decision.toJson) :
    ∃ later, Places receipt later ∧ Performs fx (carryOut fx state input j receipt).1 later := by
  unfold carryOut
  split
  · exact ⟨[], trivial, .refl fx⟩
  · next notHeld =>
    have approved : j.approved := not_not.1 notHeld
    split
    · exact ⟨[], trivial, .refl fx⟩
    · next executor _ =>
      split
      · rw [andThen_pure]
        exact performs_placeOrder fx seq (trade approved) decision executor input.execLogFails
      · rcases performs_stageIntent fx { state with pendingIntent := none }
          (pendingIntent state j j.verdict.finalAmountUsd) input.persist with
          ⟨staged, stages, keeps⟩
        apply performs_andThen stages keeps
        intro _
        rw [andThen_pure]
        exact performs_placeOrder _ seq (trade approved) decision executor input.execLogFails

theorem performs_act (fx : Effects) (state : State) (input : TickInput)
    (seq : receipt.seq.DistinctKeys) (trade : j.approved → receipt.isTrade = true)
    (decision : receipt.decision = j.decision.toJson) :
    ∃ later, Places receipt later ∧ Performs fx (act fx state input j receipt).1 later := by
  have booked : ∃ early, Performs fx (bookAbstention fx j) early ∧
      ∀ todo, Places receipt todo → Places receipt (early ++ todo) := performs_bookAbstention fx j
  rcases booked with ⟨early, books, keeps⟩
  rcases performs_carryOut (bookAbstention fx j) state input seq trade decision with
    ⟨later, places, carries⟩
  refine ⟨early ++ later, keeps later places, ?_⟩
  have performs := books.trans carries
  unfold act
  revert performs
  rcases carryOut (bookAbstention fx j) state input j receipt with ⟨after, e | done⟩
  · exact id
  · exact fun performs => ⟨performs.events, performs.receipts, performs.executions⟩

/-- A tick that reaches its verdict appends its receipt before anything else, and after it comes
at most one order with its binding. -/
theorem takeTurn_places {hash : String} {turn : Turn} {receipts : List Receipt}
    {executions : List ExecutionRecord}
    (committed : committedPolicyHash turn.configFile = .ok hash)
    (bound : BoundLogs hash world.receipts world.executions receipts executions) :
    (takeTurn world turn).1 = ⟨{ world with configFile := turn.configFile }, []⟩ ∨
      ∃ receipt later, Places receipt later ∧
        BoundLogs hash (Json.appendLine world.receipts receipt.toDict) world.executions
          (receipts ++ [receipt]) executions ∧
        Performs ⟨{ world with configFile := turn.configFile }, []⟩ (takeTurn world turn).1
          (.receiptAppended receipt :: later) := by
  unfold takeTurn
  rcases tick_cases { world with configFile := turn.configFile } turn.state turn.input with
    ⟨e, raised⟩ | ⟨ph, j, log, receipt, prepared, appended, acts⟩
  · rw [raised]
    exact .inl rfl
  · rcases prepare_eq_ok_iff.1 prepared with ⟨_, _, _, _, -, committed', -⟩
    rw [committed, Except.ok.injEq] at committed'
    subst committed'
    rcases bound.append (show (receiptArgs hash j).policyHash.tree = .str hash from rfl) with
      ⟨r, appended', verdict, seq, bound'⟩
    rw [appended, Except.ok.injEq, Prod.mk.injEq] at appended'
    rcases appended' with ⟨rfl, rfl⟩
    have trade : j.approved → receipt.isTrade = true := by
      intro approved
      rw [Receipt.isTrade, verdict]
      exact isTradeVerdict_of_approved prepared approved
    have decision : receipt.decision = j.decision.toJson := (carries_of_append appended).2.2.2.1
    rw [acts]
    rcases performs_act ⟨{ world with
        configFile := turn.configFile
        receipts := Json.appendLine world.receipts receipt.toDict }, [.receiptAppended receipt]⟩
      turn.state turn.input seq trade decision with ⟨later, places, performs⟩
    refine .inr ⟨receipt, later, places, bound', ?_⟩
    have appends : Performs ⟨{ world with configFile := turn.configFile }, []⟩
        ⟨{ world with
          configFile := turn.configFile
          receipts := Json.appendLine world.receipts receipt.toDict }, [.receiptAppended receipt]⟩
        [.receiptAppended receipt] := ⟨rfl, rfl, rfl⟩
    exact appends.trans performs

end Order

/-- The receipts on disk are those of a history and authorise the orders it sent, one each and in
order; what the execution log tells was sent. -/
structure Audited (hash : String) (history : List Event) (world : World) : Prop where
  bound : BoundLogs hash world.receipts world.executions (receiptsOf history)
    (executionsOf history)
  sent : (sentCids history).Sublist
    ((tradeHashes (receiptsOf history)).map receiptCid)
  logged : ((executionsOf history).map ExecutionRecord.cid).Sublist
    (sentCids history)

/-- When an order is sent, the last receipt of the log lets its decision through. -/
def Authorises (before : List Event) (event : Event) : Prop :=
  ∀ decision amount cid, event = .orderSent decision amount cid →
    ∃ receipt, (receiptsOf before).getLast? = some receipt ∧
      receipt.isTrade = true ∧ receipt.decision = decision.toJson ∧ cid = receiptCid receipt.hash

/-- What a process has left to do after a history. -/
inductive Due (hash : String) (history : List Event) (world : World) : List Event → Prop where
  | idle : Due hash history world []
  | appending (receipt : Receipt) (later : List Event) (places : Places receipt later)
      (bound : BoundLogs hash (Json.appendLine world.receipts receipt.toDict) world.executions
        (receiptsOf history ++ [receipt]) (executionsOf history)) :
      Due hash history world (.receiptAppended receipt :: later)
  | placing (receipt : Receipt) (earlier : List Receipt) (later : List Event)
      (places : Places receipt later)
      (last : receiptsOf history = earlier ++ [receipt])
      (unsent : (sentCids history).Sublist ((tradeHashes earlier).map receiptCid))
      (unused : ((executionsOf history).map ExecutionRecord.receiptHash).Sublist
        (tradeHashes earlier)) : Due hash history world later
  | binding (receipt : Receipt) (earlier : List Receipt) (cids : List String) (later : List Event)
      (binds : Binds receipt later) (trade : receipt.isTrade = true)
      (last : receiptsOf history = earlier ++ [receipt])
      (sent : sentCids history = cids ++ [receiptCid receipt.hash])
      (unlogged : ((executionsOf history).map ExecutionRecord.cid).Sublist cids)
      (unused : ((executionsOf history).map ExecutionRecord.receiptHash).Sublist
        (tradeHashes earlier)) : Due hash history world later

section Runs

variable {hash : String} {configFile : Option String} {history : List Event} {world : World}
  {event : Event} {todo : List Event} {recorder next start reached : Recorder}
  {action : Recorder.Action} {noted : List Event}

theorem receiptsOf_concat (history : List Event) (event : Event) :
    receiptsOf (history ++ [event]) = receiptsOf history ++ event.receipt?.toList := by
  rw [receiptsOf, List.filterMap_append, receiptsOf]
  cases event <;> rfl

theorem sentCids_concat (history : List Event) (event : Event) :
    sentCids (history ++ [event]) = sentCids history ++ event.cid?.toList := by
  rw [sentCids, List.filterMap_append, sentCids]
  cases event <;> rfl

theorem executionsOf_concat (history : List Event) (event : Event) :
    executionsOf (history ++ [event]) = executionsOf history ++ event.execution?.toList := by
  rw [executionsOf, List.filterMap_append, executionsOf]
  cases event <;> rfl

theorem tradeHashes_concat (earlier : List Receipt) {receipt : Receipt}
    (trade : receipt.isTrade = true) :
    tradeHashes (earlier ++ [receipt]) = tradeHashes earlier ++ [receipt.hash] := by
  rw [tradeHashes_append]
  simp [tradeHashes, trade]

/-- An effect that neither the logs nor the network sees. -/
theorem audited_silent (audited : Audited hash history world)
    (unwritten : world.write event = world) (receipt : event.receipt? = none)
    (cid : event.cid? = none) (execution : event.execution? = none) :
    Audited hash (history ++ [event]) (world.write event) := by
  rw [unwritten]
  refine ⟨?_, ?_, ?_⟩
  · rw [receiptsOf_concat, executionsOf_concat, receipt, execution]
    simpa using audited.bound
  · rw [receiptsOf_concat, sentCids_concat, receipt, cid]
    simpa using audited.sent
  · rw [sentCids_concat, executionsOf_concat, cid, execution]
    simpa using audited.logged

theorem due_appended {receipt : Receipt} (audited : Audited hash history world)
    (places : Places receipt todo)
    (bound : BoundLogs hash (Json.appendLine world.receipts receipt.toDict) world.executions
      (receiptsOf history ++ [receipt]) (executionsOf history)) :
    Audited hash (history ++ [.receiptAppended receipt]) (world.write (.receiptAppended receipt)) ∧
      Due hash (history ++ [.receiptAppended receipt]) (world.write (.receiptAppended receipt))
        todo := by
  have receipts := receiptsOf_concat history (.receiptAppended receipt)
  have cids := sentCids_concat history (.receiptAppended receipt)
  have executions := executionsOf_concat history (.receiptAppended receipt)
  simp only [Event.receipt?, Event.cid?, Event.execution?, Option.toList_some,
    Option.toList_none, List.append_nil] at receipts cids executions
  refine ⟨⟨?_, ?_, ?_⟩, .placing receipt (receiptsOf history) todo places receipts ?_ ?_⟩
  · rwa [receipts, executions]
  · rw [receipts, cids, tradeHashes_append, List.map_append]
    exact audited.sent.trans (List.sublist_append_left _ _)
  · rw [cids, executions]
    exact audited.logged
  · rw [cids]
    exact audited.sent
  · rw [executions]
    exact audited.bound.bound

section Placing

variable {receipt : Receipt} {earlier : List Receipt} {record : ExecutionRecord}
  {cids : List String}
  (last : receiptsOf history = earlier ++ [receipt])
  (unused : ((executionsOf history).map ExecutionRecord.receiptHash).Sublist
    (tradeHashes earlier))

include last unused

theorem due_silent (places : Places receipt todo)
    (unsent : (sentCids history).Sublist ((tradeHashes earlier).map receiptCid))
    (appends : event.receipt? = none) (sends : event.cid? = none)
    (logs : event.execution? = none) : Due hash (history ++ [event]) world todo := by
  refine .placing receipt earlier todo places ?_ ?_ ?_
  · rw [receiptsOf_concat, appends]
    simpa using last
  · rw [sentCids_concat, sends]
    simpa using unsent
  · rw [executionsOf_concat, logs]
    simpa using unused

/-- The order of the last receipt. -/
theorem due_sent (decision : Decision) (amount : ℚ) (audited : Audited hash history world)
    (trade : receipt.isTrade = true)
    (unsent : (sentCids history).Sublist ((tradeHashes earlier).map receiptCid))
    (binds : Binds receipt todo) :
    Audited hash (history ++ [.orderSent decision amount (receiptCid receipt.hash)]) world ∧
      Due hash (history ++ [.orderSent decision amount (receiptCid receipt.hash)]) world todo := by
  have receipts := receiptsOf_concat history (.orderSent decision amount (receiptCid receipt.hash))
  have cids := sentCids_concat history (.orderSent decision amount (receiptCid receipt.hash))
  have executions :=
    executionsOf_concat history (.orderSent decision amount (receiptCid receipt.hash))
  simp only [Event.receipt?, Event.cid?, Event.execution?, Option.toList_some,
    Option.toList_none, List.append_nil] at receipts cids executions
  refine ⟨⟨?_, ?_, ?_⟩, .binding receipt earlier (sentCids history) todo binds trade
    (receipts.trans last) cids ?_ ?_⟩
  · rw [receipts, executions]
    exact audited.bound
  · rw [receipts, cids, last, tradeHashes_concat earlier trade, List.map_append]
    exact unsent.append (List.Sublist.refl [receiptCid receipt.hash])
  · rw [cids, executions]
    exact audited.logged.trans (List.sublist_append_left _ _)
  · rw [executions]
    exact audited.logged
  · rw [executions]
    exact unused

/-- The binding of the last order. -/
theorem audited_logged (audited : Audited hash history world) (trade : receipt.isTrade = true)
    (sent : sentCids history = cids ++ [receiptCid receipt.hash])
    (unlogged : ((executionsOf history).map ExecutionRecord.cid).Sublist cids)
    (binds : Binds receipt [.executionLogged record]) :
    Audited hash (history ++ [.executionLogged record])
      (world.write (.executionLogged record)) := by
  rcases binds with ⟨receiptHash, cid, distinct⟩
  have receipts := receiptsOf_concat history (.executionLogged record)
  have sentAfter := sentCids_concat history (.executionLogged record)
  have executions := executionsOf_concat history (.executionLogged record)
  simp only [Event.receipt?, Event.cid?, Event.execution?, Option.toList_some,
    Option.toList_none, List.append_nil] at receipts sentAfter executions
  refine ⟨?_, ?_, ?_⟩
  · have bound := audited.bound
    rw [last] at bound
    rw [receipts, executions, last]
    exact bound.record unused trade receiptHash (receiptHash ▸ cid) distinct
  · rw [receipts, sentAfter]
    exact audited.sent
  · rw [sentAfter, executions, sent, List.map_append, List.map_singleton, cid]
    exact unlogged.append (List.Sublist.refl [receiptCid receipt.hash])

end Placing

/-- **One effect.** It keeps the logs audited, what is left stays due, and an order is
authorised. -/
theorem audited_write (audited : Audited hash history world)
    (due : Due hash history world (event :: todo)) :
    Audited hash (history ++ [event]) (world.write event) ∧
      Due hash (history ++ [event]) (world.write event) todo ∧ Authorises history event := by
  generalize left : event :: todo = effects at due
  cases due with
  | idle => cases left
  | appending receipt later places bound =>
      cases left
      rcases due_appended audited places bound with ⟨audited', due⟩
      exact ⟨audited', due, by rintro _ _ _ ⟨⟩⟩
  | placing receipt earlier _ places last unsent unused =>
      subst left
      cases event with
      | abstentionRecorded symbol =>
          exact ⟨audited_silent audited rfl rfl rfl rfl,
            due_silent last unused places unsent rfl rfl rfl, by rintro _ _ _ ⟨⟩⟩
      | intentPersisted pending =>
          exact ⟨audited_silent audited rfl rfl rfl rfl,
            due_silent last unused places unsent rfl rfl rfl, by rintro _ _ _ ⟨⟩⟩
      | orderSent decision amount cid =>
          rcases places with ⟨trade, decided, rfl, binds⟩
          rcases due_sent last unused decision amount audited trade unsent binds with
            ⟨audited', due⟩
          refine ⟨audited', due, ?_⟩
          rintro _ _ _ ⟨rfl, rfl, rfl⟩
          exact ⟨receipt, by rw [last, List.getLast?_concat], trade, decided, rfl⟩
      | receiptAppended _ => cases places
      | executionLogged _ => cases places
      | executionLogFailed => cases places
  | binding receipt earlier cids _ binds trade last sent unlogged unused =>
      subst left
      cases event with
      | executionLogged record =>
          cases todo with
          | nil =>
              exact ⟨audited_logged last unused audited trade sent unlogged binds, .idle,
                by rintro _ _ _ ⟨⟩⟩
          | cons _ _ => cases binds
      | executionLogFailed =>
          cases todo with
          | nil => exact ⟨audited_silent audited rfl rfl rfl rfl, .idle, by rintro _ _ _ ⟨⟩⟩
          | cons _ _ => cases binds
      | receiptAppended _ => cases binds
      | abstentionRecorded _ => cases binds
      | intentPersisted _ => cases binds
      | orderSent _ _ _ => cases binds

theorem due_besides (elsewhere : World) (due : Due hash history world todo) :
    Due hash history (world.besides elsewhere) todo := by
  cases due with
  | idle => exact .idle
  | appending receipt later places bound => exact .appending receipt later places bound
  | placing receipt earlier _ places last unsent unused =>
      exact .placing receipt earlier _ places last unsent unused
  | binding receipt earlier cids _ binds trade last sent unlogged unused =>
      exact .binding receipt earlier cids _ binds trade last sent unlogged unused

/-- **One move.** -/
theorem audited_step (committed : committedPolicyHash configFile = .ok hash)
    (audited : Audited hash history recorder.world)
    (due : Due hash history recorder.world recorder.todo)
    (allowed : underFile configFile recorder action = true)
    (stepped : record recorder action = some (next, noted)) :
    (Audited hash (history ++ noted) next.world ∧
        Due hash (history ++ noted) next.world next.todo) ∧
      (noted = [] ∨ ∃ event, noted = [event] ∧ Authorises history event) := by
  cases action with
  | call turn =>
      simp only [underFile, decide_eq_true_eq] at allowed
      dsimp only [record] at stepped
      split at stepped
      · cases stepped
        rw [List.append_nil]
        refine ⟨⟨audited, ?_⟩, .inl rfl⟩
        rcases takeTurn_places (allowed ▸ committed) audited.bound with
          nothing | ⟨receipt, later, places, bound, performs⟩
        · rw [nothing]
          exact .idle
        · rw [performs.events]
          exact .appending receipt later places bound
      · cases stepped
  | perform =>
      dsimp only [record] at stepped
      split at stepped
      · next event todo pending =>
        cases stepped
        rw [pending] at due
        rcases audited_write audited due with ⟨audited', due', authorised⟩
        exact ⟨⟨audited', due'⟩, .inr ⟨event, rfl, authorised⟩⟩
      · cases stepped
  | die =>
      cases stepped
      rw [List.append_nil]
      exact ⟨⟨audited, .idle⟩, .inl rfl⟩
  | others elsewhere =>
      cases stepped
      rw [List.append_nil]
      exact ⟨⟨⟨audited.bound, audited.sent, audited.logged⟩, due_besides elsewhere due⟩, .inl rfl⟩

theorem audited_run (committed : committedPolicyHash configFile = .ok hash)
    (noReceipts : start.world.receipts = []) (noExecutions : start.world.executions = [])
    (idle : start.todo = [])
    (run : Run (movesOf record (underFile configFile)) start history reached) :
    Audited hash history reached.world ∧ Due hash history reached.world reached.todo := by
  refine run.invariant (fun history recorder =>
    Audited hash history recorder.world ∧ Due hash history recorder.world recorder.todo) ?_ ?_
  · have bound : BoundLogs hash start.world.receipts start.world.executions [] [] := by
      rw [noReceipts, noExecutions]
      exact boundLogs_nil hash
    rw [idle]
    exact ⟨⟨bound, List.Sublist.refl [], List.Sublist.refl []⟩, .idle⟩
  · rintro history recorder events next ⟨audited, due⟩ ⟨action, allowed, stepped⟩
    exact (audited_step committed audited due allowed stepped).1

theorem authorised_run (committed : committedPolicyHash configFile = .ok hash)
    (noReceipts : start.world.receipts = []) (noExecutions : start.world.executions = [])
    (idle : start.todo = [])
    (run : Run (movesOf record (underFile configFile)) start history reached) :
    Justified Authorises history := by
  refine run.justified ?_
  rintro before recorder events next earlier ⟨action, allowed, stepped⟩
  rcases audited_run committed noReceipts noExecutions idle earlier with ⟨audited, due⟩
  exact (audited_step committed audited due allowed stepped).2

/-- Performing some effects without a death. -/
theorem run_perform (allowed : Recorder → Recorder.Action → Bool)
    (permitted : ∀ recorder, allowed recorder .perform = true) (world : World)
    (todo : List Event) :
    Run (movesOf record allowed) ⟨world, todo⟩ todo ⟨todo.foldl World.write world, []⟩ := by
  induction todo generalizing world with
  | nil => exact .stay
  | cons event todo ih =>
      have moved : movesOf record allowed ⟨world, event :: todo⟩ [event]
          ⟨world.write event, todo⟩ := ⟨.perform, permitted _, rfl⟩
      exact (Run.single moved).trans (ih (world.write event))

/-- A turn in which nothing dies ends in the world of the tick. -/
theorem run_takeTurn {turn : Turn} (fixed : turn.configFile = configFile)
    (committed : committedPolicyHash configFile = .ok hash) (bound : Bound hash world) :
    Run (movesOf record (underFile configFile)) ⟨world, []⟩ (takeTurn world turn).1.events
      ⟨(takeTurn world turn).1.world, []⟩ := by
  rcases bound with ⟨receipts, executions, bound⟩
  have called : movesOf record (underFile configFile) ⟨world, []⟩ []
      ⟨world, (takeTurn world turn).1.events⟩ := ⟨.call turn, by simp [underFile, fixed], rfl⟩
  have performed := run_perform (underFile configFile) (fun _ => rfl) world
    (takeTurn world turn).1.events
  have logs : ((takeTurn world turn).1.events.foldl World.write world).besides
      (takeTurn world turn).1.world = (takeTurn world turn).1.world := by
    rcases takeTurn_places (fixed ▸ committed) bound with
      nothing | ⟨receipt, later, -, -, performs⟩
    · rw [nothing]
      rfl
    · have events := performs.events
      have same := @foldl_write_congr world { world with configFile := turn.configFile } rfl rfl
        (takeTurn world turn).1.events
      rw [List.nil_append] at events
      rw [World.besides, ← same.1, ← same.2, events, ← performs.receipts, ← performs.executions]
  have others : movesOf record (underFile configFile)
      ⟨(takeTurn world turn).1.events.foldl World.write world, []⟩ []
      ⟨(takeTurn world turn).1.world, []⟩ :=
    ⟨.others (takeTurn world turn).1.world, rfl, by rw [record, logs]⟩
  have run := ((Run.single called).trans performed).move others
  simpa using run

/-- **The run of the ticks is one in which nothing dies.** -/
theorem run_worldAfter {turns : List Turn} (fixed : ∀ turn ∈ turns, turn.configFile = configFile)
    (committed : committedPolicyHash configFile = .ok hash) (bound : Bound hash world) :
    Run (movesOf record (underFile configFile)) ⟨world, []⟩
      ((turnsTaken world turns).flatMap fun entry => (takeTurn entry.1 entry.2).1.events)
      ⟨worldAfter world turns, []⟩ := by
  induction turns generalizing world with
  | nil => exact .stay
  | cons turn turns ih =>
      rw [List.forall_mem_cons] at fixed
      have first := run_takeTurn fixed.1 committed bound
      exact first.trans (ih fixed.2 (bound.takeTurn (fixed.1 ▸ committed)))

end Runs

/-- **The logs are audited at every crash point.** Under a fixed configuration file, with deaths
between any two effects, the receipts on disk are those of the history and stay a chain under the
committed hash; the orders sent are authorised by receipts on disk, each by one of its own and after
it was written; and the execution log tells only of orders that were sent. -/
theorem audited_at_every_point (configFile : Option String) (committed : Json)
    (loaded : loadConfig configFile = .ok committed) (start last : Recorder)
    (noReceipts : start.world.receipts = []) (noExecutions : start.world.executions = [])
    (idle : start.todo = []) (history : List Event)
    (run : Run (movesOf record (underFile configFile)) start history last) :
    Audited (policyHash committed) history last.world ∧ Justified Authorises history ∧
      (NoCollision (hashedInputs last.world) → PassesVerifier configFile last.world) := by
  have hashed : committedPolicyHash configFile = .ok (policyHash committed) :=
    committedPolicyHash_eq_ok_iff.2 ⟨committed, loaded, rfl⟩
  rcases audited_run hashed noReceipts noExecutions idle run with ⟨audited, -⟩
  refine ⟨audited, authorised_run hashed noReceipts noExecutions idle run, fun noCollision => ?_⟩
  exact Bound.passesVerifier ⟨_, _, audited.bound⟩ hashed noCollision

/-- The process dies after it has sent an order and before it has bound it to its receipt. -/
def lostBinding : List Recorder.Action := [.call liveTurn, .perform, .perform, .die]

theorem audited_at_every_point_lostBinding : ∃ last history,
    trace record (underFile (some "\x7b\x7d")) ⟨emptyWorld, []⟩ lostBinding = some (last, history) ∧
      (sentCids history).length = 1 ∧ last.world.executions = [] ∧
      Audited (policyHash (.obj [])) history last.world ∧ Justified Authorises history ∧
      PassesVerifier (some "\x7b\x7d") last.world := by
  have traced : (trace record (underFile (some "\x7b\x7d")) ⟨emptyWorld, []⟩ lostBinding).map
      (fun run => (decide ((sentCids run.2).length = 1), decide (run.1.world.executions = []),
        decide ((hashedInputs run.1.world).length ≤ 1))) = some (true, true, true) := by
    decide +kernel
  rcases Option.map_eq_some_iff.1 traced with ⟨⟨last, history⟩, ran, told⟩
  simp only [Prod.mk.injEq, decide_eq_true_eq] at told
  rcases told with ⟨sent, nothing, single⟩
  rcases audited_at_every_point (some "\x7b\x7d") (.obj []) rfl ⟨emptyWorld, []⟩ last rfl rfl rfl
    history (.of_trace ran) with ⟨audited, justified, passes⟩
  exact ⟨last, history, ran, sent, nothing, audited, justified,
    passes (noCollision_of_length_le_one single)⟩

end Core

end SumplusTrader
