import SumplusTrader.Core.ExposureCap
import SumplusTrader.Execution.ExitSize
import SumplusTrader.Live.Refinement

/-!
# The intents of the live loop

This file states what the write-ahead intents guarantee over every run of the live process that
reconciles, across any number of crashes and restarts. The laws come from the log of intents,
through the refinement.
-/

namespace SumplusTrader

namespace Live

/-- The numbers on disk at the calls of the executor. -/
def intentSeqs (disk : Option State) : List Happening → List ℤ
  | [] => []
  | .did (.wrote state) :: history => intentSeqs (PersistentState.write state) history
  | .did (.sent _ _ _) :: history =>
      (PersistentState.load disk).intentSeq :: intentSeqs disk history
  | _ :: history => intentSeqs disk history

/-- The snapshot on disk carries the intent of an order. -/
def Staged (live : Live) (decision : Decision) (amountUsd : ℚ) : Prop :=
  ∃ snapshot pending, live.disk = some snapshot ∧ snapshot.pendingIntent = some pending ∧
    Stages pending snapshot.intentSeq (decision, amountUsd)

/-- A reconciliation, and after it a write without a pending intent. -/
def Recovers (history : List Happening) : Prop :=
  ∃ early state middle cleared late, history =
    early ++ .did (.reconciled state) :: (middle ++ .did (.wrote cleared) :: late) ∧
      cleared.pendingIntent = none

/-- After a restart that finds a pending intent, the executor is not called before the process
has recovered. -/
def RecoversFirst (history : List Happening) : Prop :=
  Justified (fun before event => ∀ decision amount cid, event = .did (.sent decision amount cid) →
    ∀ early found late, before = early ++ .restarted found :: late →
      found.pendingIntent.isSome = true → Recovers late) history

/-- What the log of intents sees of a happening. -/
def seen (happening : Happening) : Option (WriteAhead.Event PendingIntent (Decision × ℚ)) :=
  (netEvent happening).bind WriteAhead.logEvent

section

variable {live last : Live} {history : List Happening}

theorem sentNumbers_seen (disk : Option State) (history : List Happening) :
    WriteAhead.sentNumbers ((logOf disk).pending, (logOf disk).number) (history.filterMap seen) =
      intentSeqs disk history := by
  induction history generalizing disk with
  | nil => rfl
  | cons happening history ih =>
      cases happening with
      | did event =>
          cases event with
          | wrote state =>
              have written := ih (PersistentState.write state)
              rw [logOf, PersistentState.load_write] at written
              exact written
          | sent decision amount cid => exact congrArg (_ :: ·) (ih disk)
          | reconciled state => exact ih disk
          | ticked => exact ih disk
      | stopCreated => exact ih disk
      | stopDeleted => exact ih disk
      | invoked => exact ih disk
      | restarted found => exact ih disk
      | ended gaveUp => exact ih disk
      | accepted number => exact ih disk
      | resolved number => exact ih disk

theorem seen_eq_reconciled {happening : Happening}
    (reconciled : seen happening = some .reconciled) :
    ∃ state, happening = .did (.reconciled state) := by
  cases happening with
  | did event =>
      cases event with
      | reconciled state => exact ⟨state, rfl⟩
      | _ => simp [seen, netEvent, intentEvent, WriteAhead.logEvent] at reconciled
  | _ => simp [seen, netEvent, WriteAhead.logEvent] at reconciled

theorem seen_eq_wrote {happening : Happening} {number : ℤ}
    (wrote : seen happening = some (.wrote none number)) :
    ∃ state, happening = .did (.wrote state) ∧ state.pendingIntent = none := by
  cases happening with
  | did event =>
      cases event with
      | wrote state =>
          simp only [seen, netEvent, intentEvent, Option.map_some, Option.bind_some,
            WriteAhead.logEvent, Option.some.injEq, WriteAhead.Event.wrote.injEq] at wrote
          exact ⟨state, rfl, wrote.1⟩
      | _ => simp [seen, netEvent, intentEvent, WriteAhead.logEvent] at wrote
  | _ => simp [seen, netEvent, WriteAhead.logEvent] at wrote

theorem recovers_of_seen (recovers : WriteAhead.Recovers (history.filterMap seen)) :
    Recovers history := by
  rcases recovers with ⟨early, middle, number, late, split⟩
  rcases split_of_view split with ⟨first, event, rest, rfl, -, reconciled, split'⟩
  rcases split_of_view split' with ⟨second, event', third, rfl, -, wrote, -⟩
  rcases seen_eq_reconciled reconciled with ⟨state, rfl⟩
  rcases seen_eq_wrote wrote with ⟨cleared, rfl, none⟩
  exact ⟨first, state, second, cleared, third, rfl, none⟩

theorem log_run (initial : Initial live) (run : Run (movesOf step reconciling) live history last) :
    ∃ log, Run (WriteAhead.Step Stages) (logOf live.disk) (history.filterMap seen) log := by
  rcases net_run initial (fun _ _ => id) run with ⟨net, netRun, -⟩
  have logRun := WriteAhead.log_run netRun
  rw [List.filterMap_filterMap] at logRun
  exact ⟨_, logRun⟩

/-- Only a loop that is running calls the executor. -/
theorem reconciling_of_sent {action : Action} {next : Live} {decision : Decision} {amount : ℚ}
    {cid : String} (stepped : live.step action = some (next, [.did (.sent decision amount cid)])) :
    reconciling live action = true := by
  cases action with
  | supervise deployment unreadable =>
      generalize noted : [Happening.did (.sent decision amount cid)] = events at stepped
      cases move_of_step stepped with
      | restarted => simp at noted
      | left => simp at noted
  | _ => rfl

theorem staged_of_run (initial : Initial live)
    (run : Run (movesOf step reconciling) live history last) {action : Action} {next : Live}
    {decision : Decision} {amount : ℚ} {cid : String}
    (stepped : last.step action = some (next, [.did (.sent decision amount cid)])) :
    Staged last decision amount := by
  rcases net_run initial (fun _ _ => id) run with ⟨net, netRun, tracks⟩
  have durable := WriteAhead.lastWrite_of_run (WriteAhead.log_run netRun)
  rw [List.filterMap_filterMap] at durable
  rcases log_run initial (run.move ⟨action, reconciling_of_sent stepped, stepped⟩) with
    ⟨log, logRun⟩
  rcases (WriteAhead.sent_pending logRun).of_view history _ [] rfl (.sent (decision, amount)) rfl
    (decision, amount) rfl with ⟨intent, number, written, fit⟩
  have onLog : (net.log.pending, net.log.number) = (some intent, number) :=
    durable.symm.trans written
  rcases Prod.mk.inj onLog with ⟨pending, rfl⟩
  have disk := tracks.disk
  rw [← disk.number] at fit
  rcases onDisk : last.disk with _ | snapshot
  · have found := disk.pending.trans pending
    rw [onDisk] at found
    simp [PersistentState.load, PersistentState.defaults] at found
  · have found := disk.pending.trans pending
    rw [onDisk] at found fit
    exact ⟨snapshot, intent, onDisk, found, fit⟩

theorem recoversFirst_of_run (initial : Initial live)
    (run : Run (movesOf step reconciling) live history last) : RecoversFirst history := by
  rcases log_run initial run with ⟨log, logRun⟩
  rintro before event after split decision amount cid rfl early found late split' pending
  have law := (WriteAhead.sent_recovered logRun).of_view before _ after split
    (.sent (decision, amount)) rfl (decision, amount) rfl
  rcases Option.isSome_iff_exists.1 pending with ⟨intent, isSome⟩
  apply recovers_of_seen
  refine law (early.filterMap seen) intent (late.filterMap seen) ?_
  have shown : seen (.restarted found) = some (.restarted (some intent)) := by
    simp [seen, netEvent, WriteAhead.logEvent, isSome]
  rw [split', List.filterMap_append, List.filterMap_cons_some shown]

end

/-- **Intents are written ahead and numbered once.** In every run of the process, from any
snapshot on disk: each call of the executor finds its intent on disk, no two calls carry the same
number, and a restart that finds a pending intent reconciles and clears it before the next
call. -/
theorem intents_written_ahead (live last : Live) (history : List Happening)
    (initial : Initial live) (run : Run (movesOf step reconciling) live history last) :
    (∀ action next decision amountUsd cid,
        last.step action = some (next, [.did (.sent decision amountUsd cid)]) →
          Staged last decision amountUsd) ∧
      (intentSeqs live.disk history).Nodup ∧ RecoversFirst history := by
  refine ⟨?_, ?_, recoversFirst_of_run initial run⟩
  · intro action next decision amountUsd cid stepped
    exact staged_of_run initial run stepped
  · rcases log_run initial run with ⟨log, logRun⟩
    have nodup := WriteAhead.sentNumbers_nodup rfl logRun
    rwa [sentNumbers_seen] at nodup

/-- A profile that can be deployed, and that enters a position as soon as it can. -/
def liveProfile (chain : String) : Json :=
  let number := fun n : ℤ => Json.num (.int n)
  let pair := fun fromToken toToken => Json.obj [("chain", .str chain),
    ("from", .str fromToken), ("to", .str toToken)]
  .obj [("chains", .obj [(chain, .obj [("enabled", .bool true)])]),
    ("universe", .arr [.str "INJ"]), ("quote_tokens", .arr [.str "USDT"]),
    ("allowed_tokens", .arr [.str "USDT", .str "INJ"]),
    ("allowed_pairs", .arr [pair "USDT" "INJ", pair "INJ" "USDT"]),
    ("loop", .obj [("tick_seconds", number 60)]),
    ("risk", .obj [("default_slippage_bps", number 50), ("max_single_trade_usd", number 50),
      ("max_single_trade_pct", number 1), ("max_trades_per_hour", number 4),
      ("min_trade_interval_seconds", number 900), ("stop_loss_pct", number 2),
      ("take_profit_pct", number 4), ("max_hold_hours", number 48)])]

def injectiveEnviron : Environ
  | "EXECUTION_BACKEND" => some "injective"
  | "INJ_RPC" => some "https://rpc"
  | "INJ_EXECUTOR_ADDRESS" => some "0xaff9e1c61dea470060894f396227fabf8bfa3157"
  | "AGENT_WALLET_PRIVATE_KEY" => some "0x01"
  | _ => none

def injectiveDeployment : Deployment := ⟨injectiveEnviron, false, .ok (liveProfile "injective")⟩

/-- The profile is what a configuration file is read as. -/
theorem injectiveDeployment_eq_ofFile : injectiveDeployment =
    .ofFile injectiveEnviron false (some (Json.dumps .compact (liveProfile "injective"))) := by
  have distinct : (liveProfile "injective").DistinctKeys := by
    simp [liveProfile, Json.DistinctKeys, Json.DistinctKeysFields, Json.DistinctKeysItems]
  exact (Deployment.ofFile_dumps injectiveEnviron false .compact distinct).symm

/-- No snapshot and no process. -/
def idleSystem : Live := ⟨false, none, [], [], .idle⟩

theorem initial_idleSystem : Initial idleSystem := ⟨rfl, rfl, rfl⟩

/-- Services on a chain where the agent has a hundred dollars. -/
def hundredServices : Services where
  shell := fun _ => .notStarted .osError
  indexer := ExitSetting.indexerOfBid "0.00000000002"
  chain := { ExitSetting.executingChain with
    subaccountBalance := fun _ denom =>
      if denom = "inj" then .ok (0, 0) else .ok (100000000, 100000000) }
  maria := MockBackend.toExecutionBackend
  balanceOf := fun _ _ => .error .osError

def entryIteration : IterationInput where
  world := Core.bareWorld
  market := .ok (Core.rebalanceViews "USDT", 1)
  services := hundredServices
  clock := 1
  stateClock := 1
  syncClock := 1
  execLogFails := false

/-- A happening in a word. -/
inductive Word where
  | stopCreated
  | stopDeleted
  | invoked
  | restarted (pending : Bool)
  | reconciled
  | ticked
  | wrote (pending : Bool)
  | sent
  | ended (gaveUp : Bool)
  | accepted (number : ℤ)
  | resolved (number : ℤ)
  deriving DecidableEq

def word : Happening → Word
  | .stopCreated => .stopCreated
  | .stopDeleted => .stopDeleted
  | .invoked => .invoked
  | .restarted found => .restarted found.pendingIntent.isSome
  | .did (.reconciled _) => .reconciled
  | .did .ticked => .ticked
  | .did (.wrote state) => .wrote state.pendingIntent.isSome
  | .did (.sent _ _ _) => .sent
  | .ended gaveUp => .ended gaveUp
  | .accepted number => .accepted number
  | .resolved number => .resolved number

/-- What a word says of a happening. -/
def Says : Word → Happening → Prop
  | .stopCreated, happening => happening = .stopCreated
  | .stopDeleted, happening => happening = .stopDeleted
  | .invoked, happening => happening = .invoked
  | .restarted _, happening => ∃ found, happening = .restarted found
  | .reconciled, happening => ∃ state, happening = .did (.reconciled state)
  | .ticked, happening => happening = .did .ticked
  | .wrote _, happening => ∃ state, happening = .did (.wrote state)
  | .sent, happening => ∃ decision amount cid, happening = .did (.sent decision amount cid)
  | .ended gaveUp, happening => happening = .ended gaveUp
  | .accepted number, happening => happening = .accepted number
  | .resolved number, happening => happening = .resolved number

theorem says_of_word {happening : Happening} {told : Word} (spoken : word happening = told) :
    Says told happening := by
  subst spoken
  cases happening with
  | restarted found => exact ⟨found, rfl⟩
  | did event =>
      cases event with
      | reconciled state => exact ⟨state, rfl⟩
      | ticked => rfl
      | wrote state => exact ⟨state, rfl⟩
      | sent decision amount cid => exact ⟨decision, amount, cid, rfl⟩
  | _ => rfl

/-- A split of what is told of a history is a split of the history. -/
theorem split_of_words {history : List Happening} {before after : List Word} {told : Word}
    (split : history.map word = before ++ told :: after) :
    ∃ early happening late, history = early ++ happening :: late ∧ early.map word = before ∧
      Says told happening ∧ late.map word = after := by
  rcases List.map_eq_append_iff.1 split with ⟨early, rest, rfl, earlier, split'⟩
  rcases List.map_eq_cons_iff.1 split' with ⟨happening, late, rfl, spoken, later⟩
  exact ⟨early, happening, late, rfl, earlier, says_of_word spoken, later⟩

theorem says_of_mem {history : List Happening} {told : Word} (mem : told ∈ history.map word) :
    ∃ happening ∈ history, Says told happening := by
  rcases List.mem_map.1 mem with ⟨happening, noted, spoken⟩
  exact ⟨happening, noted, says_of_word spoken⟩

/-- What happens when some actions are taken on the idle system. -/
def words (allowed : Live → Action → Bool) (actions : List Action) : Option (List Word) :=
  (trace step allowed idleSystem actions).map fun run => run.2.map word

theorem run_of_words {allowed : Live → Action → Bool} {actions : List Action}
    {told : List Word} (traced : words allowed actions = some told) :
    ∃ last history, history.map word = told ∧
      Run (movesOf step allowed) idleSystem history last := by
  rcases Option.map_eq_some_iff.1 traced with ⟨⟨last, history⟩, traced, told⟩
  exact ⟨last, history, told, .of_trace traced⟩

/-- An order is sent and the process dies; the next one recovers and sends another order. -/
def resentOrder : List Action :=
  [.invoke, .supervise injectiveDeployment none, .iterate entryIteration, .perform, .perform,
    .perform, .perform, .accept 1, .die, .invoke, .supervise injectiveDeployment none,
    .iterate entryIteration, .perform, .perform, .finish, .iterate entryIteration, .perform,
    .perform, .perform, .perform]

def resentWords : List Word :=
  [.invoked, .restarted false, .reconciled, .ticked, .wrote true, .sent, .accepted 1, .invoked,
    .restarted true, .reconciled, .wrote false, .reconciled, .ticked, .wrote true, .sent]

theorem intents_written_ahead_resentOrder : ∃ last history, history.map word = resentWords ∧
    (∀ action next decision amountUsd cid,
        last.step action = some (next, [.did (.sent decision amountUsd cid)]) →
          Staged last decision amountUsd) ∧
      (intentSeqs idleSystem.disk history).Nodup ∧ RecoversFirst history := by
  have traced : words reconciling resentOrder = some resentWords := by
    decide +kernel
  rcases run_of_words traced with ⟨last, history, told, run⟩
  exact ⟨last, history, told,
    intents_written_ahead idleSystem last history initial_idleSystem run⟩

end Live

end SumplusTrader
