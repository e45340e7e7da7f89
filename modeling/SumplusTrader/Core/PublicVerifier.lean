import SumplusTrader.Core.ExposureCap
import SumplusTrader.Core.Run
import SumplusTrader.Policy.BoundLogs

/-!
# Every run passes the public verifier

This file follows the two logs through a run of ticks under a fixed configuration file.
A tick that reaches its verdict appends one receipt under the committed hash before it
does anything else, and it logs at most one execution, which it does only for a trade
that the receipt lets through. The logs therefore stay bound to each other, whatever the
executor answers and wherever a tick raises.

When no two of the hashed inputs of a run collide, the public verifier has nothing to
object to and no receipt is referenced twice (`run_passes_verifier`).
-/

namespace SumplusTrader

namespace Core

/-- The receipt of an approved trade lets the trade through. -/
theorem isTradeVerdict_of_approved {configFile : Option String} {state : State}
    {input : TickInput} {ph : String} {j : Judgement}
    (prepared : prepare configFile state input = .ok (ph, j)) (approved : j.approved) :
    ExecLog.isTradeVerdict (.str (receiptVerdict j.verdict)) = true := by
  have kind : j.verdict.kind ≠ .hold := by
    rcases prepare_eq_ok_iff.1 prepared with ⟨_, _, _, _, -, -, -, -, judged⟩
    rcases judge_eq_ok_iff.1 judged with ⟨_, _, _, -, -, -, rfl⟩
    exact PolicyEngine.kind_ne_hold_of_allowed approved.2 approved.1
  rw [receiptVerdict, if_neg kind]
  rcases approved.1 with allow | clamp
  · rw [allow]
    rfl
  · rw [clamp]
    rfl

section Turn

variable {hash : String} {world : World} {turn : Turn} {receipts : List Receipt}
  {executions : List ExecutionRecord}

/-- Acting on a judgement keeps the logs bound. -/
theorem act_bound (fx : Effects) {r : Receipt} {state : State} {input : TickInput} {j : Judgement}
    (bound : BoundLogs hash fx.world.receipts fx.world.executions (receipts ++ [r]) executions)
    (unused : (executions.map ExecutionRecord.receiptHash).Sublist (tradeHashes receipts))
    (seq : r.seq.DistinctKeys) (trade : j.approved → r.isTrade = true) :
    ∃ executions', BoundLogs hash (act fx state input j r).1.world.receipts
      (act fx state input j r).1.world.executions (receipts ++ [r]) executions' := by
  rw [(act_extends fx state input j r).receipts]
  rcases act_logsAtMostOne fx state input j r with
    unchanged | ⟨approved, executed, detail, error, logged⟩
  · rw [unchanged]
    exact ⟨executions, bound⟩
  · rw [logged]
    exact ⟨_, bound.record unused (trade approved) rfl rfl
      (distinctKeys_executionRecord seq _ _ _ _ _ _)⟩

/-- A turn keeps the logs bound and adds at most one receipt. -/
theorem takeTurn_bound (committed : committedPolicyHash turn.configFile = .ok hash)
    (bound : BoundLogs hash world.receipts world.executions receipts executions) :
    ∃ added executions', added.length ≤ 1 ∧
      BoundLogs hash (takeTurn world turn).1.world.receipts
        (takeTurn world turn).1.world.executions (receipts ++ added) executions' := by
  unfold takeTurn
  rcases tick_cases { world with configFile := turn.configFile } turn.state turn.input with
    ⟨e, raised⟩ | ⟨ph, j, log, receipt, prepared, appended, acts⟩
  · rw [raised]
    refine ⟨[], executions, by simp, ?_⟩
    simpa using bound
  · rcases prepare_eq_ok_iff.1 prepared with ⟨_, _, _, _, -, committed', -⟩
    rw [committed, Except.ok.injEq] at committed'
    subst committed'
    rcases bound.append (show (receiptArgs hash j).policyHash.tree = .str hash from rfl) with
      ⟨r, appended', verdict, seq, bound'⟩
    rw [appended, Except.ok.injEq, Prod.mk.injEq] at appended'
    rcases appended' with ⟨rfl, rfl⟩
    have trade : j.approved → receipt.isTrade = true := by
      intro approved
      rw [Receipt.isTrade, verdict]
      exact isTradeVerdict_of_approved prepared approved
    rw [acts]
    rcases act_bound ⟨{ world with configFile := turn.configFile, receipts := _ }, [_]⟩ bound'
      bound.bound seq trade with ⟨executions', acted⟩
    exact ⟨[receipt], executions', by simp, acted⟩

end Turn

/-- The logs of a world are bound under a policy hash. -/
def Bound (hash : String) (world : World) : Prop :=
  ∃ receipts executions, BoundLogs hash world.receipts world.executions receipts executions

section Runs

variable {hash : String} {world : World} {turns : List Turn}

theorem Bound.takeTurn {turn : Turn} (committed : committedPolicyHash turn.configFile = .ok hash)
    (bound : Bound hash world) : Bound hash (Core.takeTurn world turn).1.world := by
  rcases bound with ⟨receipts, executions, bound⟩
  rcases takeTurn_bound committed bound with ⟨added, executions', -, bound'⟩
  exact ⟨receipts ++ added, executions', bound'⟩

theorem Bound.worldAfter
    (committed : ∀ turn ∈ turns, committedPolicyHash turn.configFile = .ok hash)
    (bound : Bound hash world) : Bound hash (Core.worldAfter world turns) := by
  induction turns generalizing world with
  | nil => exact bound
  | cons turn turns ih =>
      rw [List.forall_mem_cons] at committed
      exact ih committed.2 (Bound.takeTurn committed.1 bound)

/-- Every turn of a run starts with bound logs. -/
theorem bound_of_mem_turnsTaken
    (committed : ∀ turn ∈ turns, committedPolicyHash turn.configFile = .ok hash)
    (bound : Bound hash world) {entry : World × Turn} (mem : entry ∈ turnsTaken world turns) :
    Bound hash entry.1 := by
  induction turns generalizing world with
  | nil => simp [turnsTaken] at mem
  | cons turn turns ih =>
      rw [List.forall_mem_cons] at committed
      rcases List.mem_cons.1 mem with rfl | later
      · exact bound
      · exact ih committed.2 (Bound.takeTurn committed.1 bound) later

end Runs

/-- When the turn reaches its verdict, it appends one receipt to the log, and does so
before anything else. -/
def ReceiptFirst (world : World) (turn : Turn) : Prop :=
  ∀ ph j, prepare turn.configFile turn.state turn.input = .ok (ph, j) →
    ∃ receipt later, (takeTurn world turn).1.events = .receiptAppended receipt :: later ∧
      (∀ other, .receiptAppended other ∉ later) ∧
      (takeTurn world turn).1.world.receipts = Json.appendLine world.receipts receipt.toDict

theorem Bound.receiptFirst {hash : String} {world : World} (bound : Bound hash world)
    (turn : Turn) : ReceiptFirst world turn := by
  intro ph j prepared
  rcases bound with ⟨receipts, executions, bound⟩
  have appends : ∃ r, ReceiptChain.append world.receipts (receiptArgs ph j) =
      .ok (Json.appendLine world.receipts r.toDict, r) := ⟨_, bound.chain.append_eq _⟩
  rcases appends with ⟨r, appended⟩
  let fx : Effects := {
    world := { world with
      configFile := turn.configFile
      receipts := Json.appendLine world.receipts r.toDict }
    events := [.receiptAppended r] }
  have ticked : Core.takeTurn world turn = act fx turn.state turn.input j r :=
    takeTurn_of_prepare prepared appended
  have continued := act_extends fx turn.state turn.input j r
  rw [ticked]
  rcases continued.events with ⟨later, events, permitted⟩
  refine ⟨r, later, events, ?_, continued.receipts⟩
  intro other mem
  exact permitted _ mem

/-- The inputs that the receipts of a world are hashed from. -/
def hashedInputs (world : World) : List (List UInt8) :=
  preimages ((Json.readLines world.receipts).getD [])

/-- The public verifier has nothing to object to in the logs. -/
def PassesVerifier (configFile : Option String) (world : World) : Prop :=
  ∃ report, verifyLive configFile world.receipts world.executions = .ok report ∧
    report.chainIntact = true ∧ report.allReferenceCommittedHash = true ∧
    report.executionsBound = true ∧ report.executionsBad = []

/-- No receipt in the logs is referenced by two executions. -/
def ReceiptsReferencedOnce (world : World) : Prop :=
  ∃ receipts executions, ReceiptChain.readAll world.receipts = .ok receipts ∧
    ExecLog.readAll world.executions = .ok executions ∧ ReferencedOnce receipts executions

section Verifier

variable {hash : String} {world : World}

theorem Bound.passesVerifier {configFile : Option String} (bound : Bound hash world)
    (committed : committedPolicyHash configFile = .ok hash)
    (noCollision : NoCollision (hashedInputs world)) : PassesVerifier configFile world := by
  rcases bound with ⟨receipts, executions, bound⟩
  rw [hashedInputs, bound.chain.read, Option.getD_some] at noCollision
  have nodup := nodup_hash_of_chain bound.chain noCollision
  exact ⟨_, bound.verifyLive_eq committed nodup, rfl, rfl, rfl, rfl⟩

theorem Bound.receiptsReferencedOnce (bound : Bound hash world)
    (noCollision : NoCollision (hashedInputs world)) : ReceiptsReferencedOnce world := by
  rcases bound with ⟨receipts, executions, bound⟩
  rw [hashedInputs, bound.chain.read, Option.getD_some] at noCollision
  have nodup := nodup_hash_of_chain bound.chain noCollision
  exact ⟨_, _, readAll_eq_ok_iff.2 bound.chain.read, bound.readAll, bound.referencedOnce nodup⟩

end Verifier

/-- **Every run passes the public verifier.** Under a fixed configuration file, a run from
empty logs keeps the chain intact and under the committed hash and its executions bound,
every tick that reaches its verdict appends one receipt before anything else, and no
receipt is referenced twice. -/
theorem run_passes_verifier (configFile : Option String) (committed : Json)
    (loaded : loadConfig configFile = .ok committed) (world : World)
    (noReceipts : world.receipts = []) (noExecutions : world.executions = [])
    (turns : List Turn) (fixed : ∀ turn ∈ turns, turn.configFile = configFile)
    (noCollision : NoCollision (hashedInputs (worldAfter world turns))) :
    PassesVerifier configFile (worldAfter world turns) ∧
      (∀ entry ∈ turnsTaken world turns, ReceiptFirst entry.1 entry.2) ∧
      ReceiptsReferencedOnce (worldAfter world turns) := by
  have hashed : committedPolicyHash configFile = .ok (policyHash committed) :=
    committedPolicyHash_eq_ok_iff.2 ⟨committed, loaded, rfl⟩
  have hashedTurns : ∀ turn ∈ turns,
      committedPolicyHash turn.configFile = .ok (policyHash committed) := by
    intro turn mem
    rw [fixed turn mem]
    exact hashed
  have initial : Bound (policyHash committed) world := by
    refine ⟨[], [], ?_⟩
    rw [noReceipts, noExecutions]
    exact boundLogs_nil _
  have final := Bound.worldAfter hashedTurns initial
  refine ⟨final.passesVerifier hashed noCollision, ?_, final.receiptsReferencedOnce noCollision⟩
  intro entry mem
  exact (bound_of_mem_turnsTaken hashedTurns initial mem).receiptFirst entry.2

theorem noCollision_of_length_le_one {inputs : List (List UInt8)} (length : inputs.length ≤ 1) :
    NoCollision inputs := by
  rcases inputs with _ | ⟨input, _ | ⟨other, rest⟩⟩
  · simp [NoCollision]
  · simp [NoCollision]
  · simp at length

/-- Two turns that reach their verdicts and whose receipts have different hashes. -/
theorem noCollision_twoTurns {turn turn' : Turn} {ph ph' : String} {j j' : Judgement}
    (prepared : prepare turn.configFile turn.state turn.input = .ok (ph, j))
    (prepared' : prepare turn'.configFile turn'.state turn'.input = .ok (ph', j'))
    {first second : Receipt} (isFirst : first = nextReceipt [] [] (receiptArgs ph j))
    (isSecond : second = nextReceipt [first.toDict] [first.link] (receiptArgs ph' j'))
    (differ : first.hash ≠ second.hash) :
    NoCollision (hashedInputs (worldAfter emptyWorld [turn, turn'])) := by
  have begun := appended_takeTurn logOf_emptyWorld Json.blank_nil prepared
  rw [← isFirst] at begun
  have ended := appended_takeTurn begun.log begun.closed prepared'
  rw [List.nil_append, List.nil_append, ← isSecond] at ended
  have read : Json.readLines (worldAfter emptyWorld [turn, turn']).receipts =
      some [first.toDict, second.toDict] := ended.log.read
  rw [hashedInputs, read, Option.getD_some]
  apply noCollision_pair
  intro same
  apply differ
  rw [isFirst, isSecond] at same ⊢
  exact prefixedHash_inj.2 same

/-- A live executor of the Injective backend that fills every order. -/
def injectiveExecutor : Executor where
  backend := {
    acceptsCid := true
    getQuote := fun _ => .error .osError
    executeSwap := fun _ => .ok ⟨true, false,
      ⟨.obj [("source", .str "injective"), ("tx", .str "0x1")], by
        simp [Json.DistinctKeys, Json.DistinctKeysFields]⟩, none⟩ }
  mode := "live"
  slippageBps := 50

/-- A turn that enters a position through the live executor. -/
def liveTurn : Turn where
  configFile := some "\x7b\x7d"
  state := (markNav (hundredBook Dict.empty 100) (priceMap (rebalanceViews "USDT"))).2
  input := { rebalanceInput "USDT" with executor := some injectiveExecutor }

/-- A run of two turns, each of which trades. -/
def liveTurns : List Turn := [liveTurn, liveTurn]

/-- The turn reaches its verdict, and the hashes of two receipts of it differ. -/
theorem liveTurn_hashes : (prepare liveTurn.configFile liveTurn.state liveTurn.input).toOption.any
    (fun prepared =>
      let args := receiptArgs prepared.1 prepared.2
      let first := nextReceipt [] [] args
      decide (first.hash ≠ (nextReceipt [first.toDict] [first.link] args).hash)) = true := by
  decide +kernel

theorem noCollision_liveTurns : NoCollision (hashedInputs (worldAfter emptyWorld liveTurns)) := by
  rcases (Option.any_eq_true _ _).1 liveTurn_hashes with ⟨⟨ph, j⟩, reached, differ⟩
  have prepared := toOption_eq_some_iff.1 reached
  exact noCollision_twoTurns prepared prepared rfl rfl (of_decide_eq_true differ)

theorem run_passes_verifier_liveTurns :
    PassesVerifier (some "\x7b\x7d") (worldAfter emptyWorld liveTurns) ∧
      (∀ entry ∈ turnsTaken emptyWorld liveTurns, ReceiptFirst entry.1 entry.2) ∧
      ReceiptsReferencedOnce (worldAfter emptyWorld liveTurns) := by
  refine run_passes_verifier _ (.obj []) rfl emptyWorld rfl rfl liveTurns ?_ noCollision_liveTurns
  simp [liveTurns, liveTurn]

example : (takeTurn emptyWorld liveTurn).1.world.executions ≠ [] := by decide +kernel

end Core

end SumplusTrader
