import SumplusTrader.Core.Commitment
import SumplusTrader.Policy.ReceiptChain

/-!
# Runs of ticks

This file models a run: ticks one after the other, each with the configuration file
as it is at that time and with the state and the inputs that its caller passes. The
logs and the ledger carry over from one tick to the next.

A turn enforces its file when it was called without a configuration, or with one that
has the canonical bytes of the file. `receipts_reference_enforced` says that in a run
of such turns every receipt references the rules that its tick enforced. A turn that
passes on a configuration loaded before the file changed breaks this, because the tick
hashes the file it finds.
-/

namespace SumplusTrader

/-- A call of `tick`, with the configuration file it finds. -/
structure Turn where
  configFile : Option String
  state : State
  input : TickInput

namespace Core

def takeTurn (world : World) (turn : Turn) : Effects × Except PyError (TickResult × State) :=
  tick { world with configFile := turn.configFile } turn.state turn.input

/-- The turns of a run, each with the world it starts in. -/
def turnsTaken (world : World) : List Turn → List (World × Turn)
  | [] => []
  | turn :: turns => (world, turn) :: turnsTaken (takeTurn world turn).1.world turns

/-- The world after a run. -/
def worldAfter (world : World) (turns : List Turn) : World :=
  turns.foldl (fun world turn => (takeTurn world turn).1.world) world

theorem mem_of_mem_turnsTaken {world : World} {turns : List Turn} {entry : World × Turn}
    (mem : entry ∈ turnsTaken world turns) : entry.2 ∈ turns := by
  induction turns generalizing world with
  | nil => simp [turnsTaken] at mem
  | cons turn turns ih =>
      rcases List.mem_cons.1 mem with rfl | later
      · exact List.mem_cons_self
      · exact List.mem_cons_of_mem _ (ih later)

theorem carries_of_append {log log' : List Char} {args : ReceiptArgs} {r : Receipt}
    (appended : ReceiptChain.append log args = .ok (log', r)) : Carries args r := by
  rcases bind_eq_ok_iff.1 appended with ⟨⟨seq, prev⟩, -, appended⟩
  cases prev with
  | str prev =>
      simp only [pure, Except.pure, Except.ok.injEq, Prod.mk.injEq] at appended
      rw [← appended.2]
      exact ⟨rfl, rfl, rfl, rfl, rfl, rfl, rfl⟩
  | _ => simp at appended

/-- A turn that reaches its verdict acts on it behind its receipt. -/
theorem takeTurn_of_prepare {world : World} {turn : Turn} {ph : String} {j : Judgement}
    {log : List Char} {receipt : Receipt}
    (prepared : prepare turn.configFile turn.state turn.input = .ok (ph, j))
    (appended : ReceiptChain.append world.receipts (receiptArgs ph j) = .ok (log, receipt)) :
    takeTurn world turn =
      act ⟨{ world with configFile := turn.configFile, receipts := log },
        [.receiptAppended receipt]⟩ turn.state turn.input j receipt :=
  tick_of_prepare prepared appended

section Receipts

variable {world : World} {state : State} {input : TickInput}

/-- The only receipt that a tick appends is the one of its judgement. -/
theorem receipt_of_tick {receipt : Receipt}
    (mem : Event.receiptAppended receipt ∈ (tick world state input).1.events) :
    ∃ ph j log, prepare world.configFile state input = .ok (ph, j) ∧
      ReceiptChain.append world.receipts (receiptArgs ph j) = .ok (log, receipt) := by
  rcases mem_events_of_tick mem with ⟨ph, j, log, receipt', prepared, appended, same | permitted⟩
  · rw [Event.receiptAppended.injEq] at same
    exact ⟨ph, j, log, prepared, same ▸ appended⟩
  · exact permitted.elim

theorem receiptAppended_mem {ph : String} {j : Judgement} {log : List Char} {receipt : Receipt}
    (prepared : prepare world.configFile state input = .ok (ph, j))
    (appended : ReceiptChain.append world.receipts (receiptArgs ph j) = .ok (log, receipt)) :
    Event.receiptAppended receipt ∈ (tick world state input).1.events := by
  rw [tick_of_prepare prepared appended]
  rcases (act_extends ⟨{ world with receipts := log }, [.receiptAppended receipt]⟩ state input j
    receipt).events with ⟨later, events, -⟩
  rw [events]
  exact List.mem_cons_self

end Receipts

end Core

/-- The receipt carries the hash of the configuration that the strategy and the policy
engine used in the turn. -/
def ReferencesEnforced (turn : Turn) (receipt : Receipt) : Prop :=
  ∃ cfg ph j, Core.enforcedConfig turn.configFile turn.input.cfg = .ok cfg ∧
    Core.prepare turn.configFile turn.state turn.input = .ok (ph, j) ∧
    Config.ofJson cfg = some j.cfg ∧ receipt.policyHash = .str (policyHash cfg)

/-- The turn passes no configuration on, an empty one, or one with the canonical bytes
of the file. -/
def Turn.EnforcesFile (turn : Turn) : Prop :=
  ∀ cfg committed, turn.input.cfg = some cfg → cfg.truthy = true →
    loadConfig turn.configFile = .ok committed → canonicalBytes cfg = canonicalBytes committed

theorem committedPolicyHash_eq_ok_iff {configFile : Option String} {ph : String} :
    committedPolicyHash configFile = .ok ph ↔
      ∃ committed, loadConfig configFile = .ok committed ∧ policyHash committed = ph := by
  unfold committedPolicyHash
  cases loadConfig configFile <;> simp [Except.map]

theorem Turn.EnforcesFile.policyHash_eq {turn : Turn} (enforces : turn.EnforcesFile)
    {cfg committed : Json} (enforced : Core.enforcedConfig turn.configFile turn.input.cfg = .ok cfg)
    (loaded : loadConfig turn.configFile = .ok committed) :
    policyHash cfg = policyHash committed := by
  unfold Core.enforcedConfig at enforced
  split at enforced
  · rw [loaded, Except.ok.injEq] at enforced
    rw [enforced]
  · next given passed =>
    split at enforced
    · next truthy =>
      rw [Except.ok.injEq] at enforced
      subst enforced
      rw [policyHash, enforces given committed passed truthy loaded, policyHash]
    · rw [loaded, Except.ok.injEq] at enforced
      rw [enforced]

theorem Turn.EnforcesFile.references {turn : Turn} (enforces : turn.EnforcesFile) {world : World}
    {receipt : Receipt}
    (mem : Event.receiptAppended receipt ∈ (Core.takeTurn world turn).1.events) :
    ReferencesEnforced turn receipt := by
  rcases Core.receipt_of_tick mem with ⟨ph, j, log, prepared, appended⟩
  rcases Core.prepare_eq_ok_iff.1 prepared with
    ⟨cfg, config, views, dataTs, enforced, hashed, read, market, judged⟩
  rcases committedPolicyHash_eq_ok_iff.1 hashed with ⟨committed, loaded, rfl⟩
  rcases Core.judge_eq_ok_iff.1 judged with ⟨chain, quote, intent, -, -, -, rfl⟩
  refine ⟨cfg, _, _, enforced, prepared, read, ?_⟩
  rw [enforces.policyHash_eq enforced loaded]
  exact (Core.carries_of_append appended).2.1

/-- In a run of turns that enforce their file, every receipt references the rules that
its tick enforced. -/
theorem receipts_reference_enforced (world : World) (turns : List Turn)
    (enforces : ∀ turn ∈ turns, turn.EnforcesFile) :
    ∀ entry ∈ Core.turnsTaken world turns, ∀ receipt,
      Event.receiptAppended receipt ∈ (Core.takeTurn entry.1 entry.2).1.events →
        ReferencesEnforced entry.2 receipt := by
  intro entry taken receipt mem
  exact (enforces entry.2 (Core.mem_of_mem_turnsTaken taken)).references mem

/-- A profile with the required values alone. -/
def capProfile (cap : ℤ) : Json :=
  let number := fun n : ℤ => Json.num (.int n)
  .obj [("risk", .obj [("max_single_trade_usd", number cap), ("max_trades_per_hour", number 4),
    ("min_trade_interval_seconds", number 900), ("stop_loss_pct", number 2),
    ("take_profit_pct", number 4), ("max_hold_hours", number 48)])]

/-- A turn that finds one profile in its file and is called with another. -/
def profileTurn (committed passed : ℤ) : Turn where
  configFile := some (Json.dumps .spaced (capProfile committed))
  state := Core.freshState
  input := { Core.emptyMarket with cfg := some (capProfile passed) }

theorem loadConfig_capProfile (cap : ℤ) :
    loadConfig (some (Json.dumps .spaced (capProfile cap))) = .ok (capProfile cap) := by
  have distinct : (capProfile cap).DistinctKeys := by
    simp [capProfile, Json.DistinctKeys, Json.DistinctKeysFields]
  simp only [loadConfig, Json.loads_dumps .spaced distinct]

/-- A world without a log. -/
def emptyWorld : World where
  configFile := none
  receipts := []
  executions := []
  abstentions := []
  snapshot := none

theorem logOf_emptyWorld : LogOf emptyWorld.receipts [] [] := logOf_nil

theorem profileTurn_prepares (committed passed : ℤ) : ∃ j,
    Core.prepare (profileTurn committed passed).configFile Core.freshState
      (profileTurn committed passed).input = .ok (policyHash (capProfile committed), j) := by
  have read : (Config.ofJson (capProfile passed)).isSome := rfl
  rcases Option.isSome_iff_exists.1 read with ⟨config, found⟩
  have chains : config.chains = [] := by
    have named : (Config.ofJson (capProfile passed)).map Config.chains = some [] := rfl
    simpa [found] using named
  have quotes : config.quoteTokens = none := by
    have quotes : (Config.ofJson (capProfile passed)).map Config.quoteTokens = some none := rfl
    simpa [found] using quotes
  refine ⟨_, Core.prepare_eq_ok_iff.2 ⟨capProfile passed, config, [], 0, rfl,
    committedPolicyHash_eq_ok_iff.2 ⟨_, loadConfig_capProfile committed, rfl⟩, found, rfl,
    Core.judge_eq_ok_iff.2 ⟨"bsc", "USDT", _, ?_, ?_, Core.decide_nothing config 1 1 _ _, rfl⟩⟩⟩
  · rw [chains]
    rfl
  · simp [Core.firstQuote, quotes]

/-- What a turn that reaches its verdict leaves of a valid log. -/
structure Appended (world : World) (turn : Turn) (records : List Json)
    (links : List (HashChain.Link ReceiptBody String)) (receipt : Receipt) : Prop where
  mem : Event.receiptAppended receipt ∈ (Core.takeTurn world turn).1.events
  log : LogOf (Core.takeTurn world turn).1.world.receipts (records ++ [receipt.toDict])
    (links ++ [receipt.link])
  closed : Json.Blank (Json.openLine (Core.takeTurn world turn).1.world.receipts)

theorem appended_takeTurn {world : World} {turn : Turn} {records : List Json}
    {links : List (HashChain.Link ReceiptBody String)} (valid : LogOf world.receipts records links)
    (blank : Json.Blank (Json.openLine world.receipts)) {ph : String} {j : Judgement}
    (prepared : Core.prepare turn.configFile turn.state turn.input = .ok (ph, j)) :
    Appended world turn records links (nextReceipt records links (Core.receiptArgs ph j)) := by
  have appended := valid.append_eq (Core.receiptArgs ph j)
  have receipts : (Core.takeTurn world turn).1.world.receipts = Json.appendLine world.receipts
      (nextReceipt records links (Core.receiptArgs ph j)).toDict := by
    rw [Core.takeTurn_of_prepare prepared appended]
    exact (Core.act_extends _ _ _ _ _).receipts
  have prepared' : Core.prepare { world with configFile := turn.configFile }.configFile turn.state
      turn.input = .ok (ph, j) := prepared
  refine ⟨Core.receiptAppended_mem prepared' appended, ?_, ?_⟩
  · rw [receipts]
    exact valid.append blank _
  · rw [receipts, Json.openLine_appendLine]
    exact Json.blank_nil

/-- The file changes between the turns, and each of them is called with what it finds. -/
def changingTurns : List Turn := [profileTurn 2 2, profileTurn 5 5]

theorem receipts_reference_enforced_profile :
    (Core.turnsTaken emptyWorld changingTurns).length = 2 ∧
      ∀ entry ∈ Core.turnsTaken emptyWorld changingTurns, ∃ receipt,
        Event.receiptAppended receipt ∈ (Core.takeTurn entry.1 entry.2).1.events ∧
          ReferencesEnforced entry.2 receipt := by
  have current : ∀ cap, (profileTurn cap cap).EnforcesFile := by
    intro cap cfg committed passed truthy loaded
    rw [profileTurn, loadConfig_capProfile, Except.ok.injEq] at loaded
    rw [profileTurn, Option.some.injEq] at passed
    rw [← passed, ← loaded]
  have enforces : ∀ turn ∈ changingTurns, turn.EnforcesFile := by
    simp [changingTurns, current]
  have references := receipts_reference_enforced emptyWorld changingTurns enforces
  rcases profileTurn_prepares 2 2 with ⟨first, prepared⟩
  rcases profileTurn_prepares 5 5 with ⟨second, prepared'⟩
  have appended := appended_takeTurn logOf_emptyWorld Json.blank_nil prepared
  have appended' := appended_takeTurn appended.log appended.closed prepared'
  simp only [changingTurns, Core.turnsTaken, List.mem_cons, List.not_mem_nil, or_false,
    forall_eq_or_imp, forall_eq] at references ⊢
  exact ⟨rfl, ⟨_, appended.mem, references.1 _ appended.mem⟩,
    _, appended'.mem, references.2 _ appended'.mem⟩

/-- A file that changes after its configuration was loaded: the receipt references the
new rules, while the old ones were enforced. -/
theorem changed_file_referenced :
    ¬∀ entry ∈ Core.turnsTaken emptyWorld [profileTurn 5 2], ∀ receipt,
      Event.receiptAppended receipt ∈ (Core.takeTurn entry.1 entry.2).1.events →
        ReferencesEnforced entry.2 receipt := by
  intro references
  rcases profileTurn_prepares 5 2 with ⟨j, prepared⟩
  have appended := logOf_nil.append_eq (Core.receiptArgs (policyHash (capProfile 5)) j)
  simp only [Core.turnsTaken, List.mem_singleton, forall_eq, Core.takeTurn] at references
  rcases references _ (Core.receiptAppended_mem prepared appended) with
    ⟨cfg, _, _, enforced, -, -, carried⟩
  have passed : capProfile 2 = cfg := by
    simpa [profileTurn, Core.enforcedConfig, capProfile, Json.truthy] using enforced
  subst passed
  have same : policyHash (capProfile 5) = policyHash (capProfile 2) :=
    Json.str.inj ((Core.carries_of_append appended).2.1.symm.trans carried)
  exact absurd same (by decide +kernel)

end SumplusTrader
