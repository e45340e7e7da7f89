import SumplusTrader.Live.Intents

/-!
# Reading the balances before sending

This file relates what a deployment sends to what it reads. Whether the loop reads balances
depends on the backend, on its dry run and on the address of the wallet; whether it sends depends
on the backend alone.

`reconciles_first_iff` names the environments under which the loop sends an order without having
read the balances in the same iteration: those of a wallet tool or of a hosted backend without
the address of a wallet.
-/

namespace SumplusTrader

namespace Live

/-- What the iterations of a loop do, until one of them raises. -/
def loopRun (loop : LoopSetup) : State → List IterationInput → List (List LiveEvent)
  | _, [] => []
  | state, input :: inputs =>
      (iteration loop input state).1 ::
        match (iteration loop input state).2 with
        | .ok next => loopRun loop next inputs
        | .error _ => []

/-- Before each order the balances were read, and the positions and the cash overwritten. -/
def ReconciledFirst (events : List LiveEvent) : Prop :=
  Justified (fun before event => ∀ decision amount cid, event = .sent decision amount cid →
    ∃ state, .reconciled state ∈ before) events

/-- Every run of the loop in an environment, with a backend that sends what it is given,
reconciles before it sends in each iteration. -/
def ReconcilesFirst (env : Environ) (onPath : Bool) : Prop :=
  ∀ config disk loop state inputs, start ⟨env, onPath, config⟩ disk = .ok (loop, state) →
    loop.backend.sends → ∀ events ∈ loopRun loop state inputs, ReconciledFirst events

/-- The loop starts with a backend that sends, and has nowhere to read balances from. -/
structure Unreconciled (env : Environ) (onPath : Bool) : Prop where
  wallet : env.text "AGENT_WALLET_ADDRESS" "" = ""
  sends : chosenBackend env = "twak" ∧ onPath = true ∨
    chosenBackend env = "maria" ∧ (env "MARIA_BASE_URL").isSome = true
  seed : ∃ seedNav, env.floatLiteral "START_NAV" "500" = .ok seedNav

section

variable {env : Environ} {onPath : Bool} {mode : String} {loop : LoopSetup} {state : State}

/-- The backends of a live deployment. -/
theorem makeBackend_cases {backend : Backend} (live : isLive (chosenBackend env))
    (made : makeBackend env onPath "live" = .ok backend) :
    (chosenBackend env = "twak" ∧ backend = .twak (.ofEnviron onPath none)) ∨
      (chosenBackend env = "maria" ∧ (env "MARIA_BASE_URL").isSome = true ∧ backend = .maria) ∨
      ∃ injective, backend = .injective injective := by
  rcases live with chosen | chosen | chosen
  · simp only [makeBackend, chosen, if_true, Except.ok.injEq] at made
    exact .inl ⟨chosen, made.symm⟩
  · rcases set : env "MARIA_BASE_URL" with _ | url
    · simp [makeBackend, chosen, makeMaria, set] at made
    · simp [makeBackend, chosen, makeMaria, set] at made
      exact .inr (.inl ⟨chosen, rfl, made.symm⟩)
  · right
    right
    have made' : makeInjective env = .ok backend := by
      simpa [makeBackend, chosen] using made
    simp only [makeInjective, bind_eq_ok_iff, pure, Except.pure, Except.ok.injEq] at made'
    rcases made' with ⟨_, -, _, -, injective, -, rfl⟩
    exact ⟨injective, rfl⟩

/-- A live backend, other than the one that reads its own subaccount, reads the wallet if it has
the address of one. -/
theorem reconcilerOf_eq_none_iff {backend : Backend} (live : isLive (chosenBackend env))
    (other : ∀ injective, backend ≠ .injective injective) :
    reconcilerOf env backend = .ok none ↔ env.text "AGENT_WALLET_ADDRESS" "" = "" := by
  by_cases wallet : env.text "AGENT_WALLET_ADDRESS" "" = ""
  · cases backend with
    | injective injective => exact absurd rfl (other injective)
    | _ => simp [reconcilerOf, wallet]
  · cases backend with
    | injective injective => exact absurd rfl (other injective)
    | _ =>
        simp only [reconcilerOf, live, wallet, ne_eq, not_false_eq_true, and_self, if_true, iff_false]
        split <;> simp

/-- A loop that sends without a source of balances is in such an environment. -/
theorem unreconciled_of_setup {config : Except PyError Json}
    (done : setup ⟨env, onPath, config⟩ = .ok loop) (sends : loop.backend.sends)
    (unread : loop.reconciler = none) : Unreconciled env onPath := by
  rcases setup_cases done with ⟨mode, made, found, seed⟩
  rw [unread] at found
  by_cases live : isLive (chosenBackend env)
  · rw [mode, if_pos live] at made
    rcases makeBackend_cases live made with ⟨chosen, twak⟩ | ⟨chosen, set, maria⟩ |
      ⟨injective, isInjective⟩
    · rw [twak] at sends found
      have wallet := (reconcilerOf_eq_none_iff live (by simp)).1 found
      refine ⟨wallet, .inl ⟨chosen, ?_⟩, ?_⟩
      · simpa [Backend.sends, TwakBackend.ofEnviron] using sends
      · simpa [chosen] using seed
    · rw [maria] at found
      have wallet := (reconcilerOf_eq_none_iff live (by simp)).1 found
      refine ⟨wallet, .inr ⟨chosen, set⟩, ?_⟩
      simpa [chosen] using seed
    · rw [isInjective] at sends found
      have dryRun : injective.dryRun = false := sends
      simp [reconcilerOf, dryRun] at found
  · rw [mode, if_neg live, makeBackend_of_not_isLive onPath live, Except.ok.injEq] at made
    rw [← made] at sends
    exact sends.elim

/-- An iteration with a source of balances reads them before anything else, or sends nothing. -/
theorem reconciledFirst_iteration (reconciles : loop.reconciler.isSome = true)
    (input : IterationInput) (state : State) : ReconciledFirst (iteration loop input state).1 := by
  have head : ∀ state rest, ReconciledFirst (.reconciled state :: rest) := by
    intro state rest before event after split decision amount cid rfl
    rcases before with _ | ⟨first, before⟩
    · simp at split
    · rw [List.cons_append, List.cons.injEq] at split
      exact ⟨state, by simp [split.1]⟩
  unfold iteration
  split
  · exact justified_nil _
  · next market _ =>
    split
    · intro before event after split decision amount cid sent
      rcases before with _ | ⟨first, before⟩
      · simp [sent] at split
      · simp at split
    · next reads next read =>
      rcases reconcile_cases reconciles read with ⟨rfl, -, -⟩
      dsimp only
      split
      · exact head _ _
      · exact head _ _

theorem reconciledFirst_loopRun (reconciles : loop.reconciler.isSome = true)
    (state : State) (inputs : List IterationInput) :
    ∀ events ∈ loopRun loop state inputs, ReconciledFirst events := by
  induction inputs generalizing state with
  | nil => simp [loopRun]
  | cons input inputs ih =>
      intro events mem
      rw [loopRun, List.mem_cons] at mem
      rcases mem with rfl | mem
      · exact reconciledFirst_iteration reconciles input state
      · split at mem
        · exact ih _ events mem
        · simp at mem

/-- A tick that has an order sends it, after its intent is written. -/
theorem sent_of_orders {input : IterationInput} {market : List TokenView × ℚ}
    {j : Judgement} {cid : String} (live : loop.mode = "live")
    (orders : Core.Orders input.world state (tickInput loop input market) j cid) :
    ∃ staged decision amount cid rest, (decideOn loop input market state).1 =
      .ticked :: .wrote staged :: .sent decision amount cid :: rest := by
  have ended : Core.LiveTick input.world state (tickInput loop input market)
      (executor loop input) _ _ :=
    Core.liveTick input.world state rfl (not_simulates_of_live live) rfl
  unfold decideOn
  dsimp only
  generalize (Core.tick input.world state (tickInput loop input market)).1 = fx at ended ⊢
  generalize (Core.tick input.world state (tickInput loop input market)).2 = result at ended ⊢
  cases ended with
  | early e idle snapshot outward => exact absurd orders (idle j cid)
  | held result idle snapshot outward => exact absurd orders (idle j cid)
  | failed j' cid' e orders' snapshot outward answer =>
      rw [afterTick, tickEvents_of_sent outward]
      exact ⟨_, _, _, _, _, rfl⟩
  | settled j' cid' executed result orders' snapshot outward answer =>
      rw [afterTick, tickEvents_of_sent outward]
      exact ⟨_, _, _, _, _, rfl⟩

end

/-- A snapshot with a hundred dollars. -/
def fundedBook : State := { Core.hundredBook Dict.empty 100 with highWaterMark := some 100 }

def fundedState : State := PersistentState.load (some fundedBook)

/-- The variables of a loop that enters a position and reads no balances. -/
def unreadLoop (env : Environ) (backend : Backend) (seedNav : ℚ) : LoopSetup where
  env := env
  cfg := liveProfile "bsc"
  universeTokens := ["INJ"]
  quotes := ["USDT"]
  backend := backend
  mode := "live"
  slippageBps := 50
  reconciler := none
  seedNav := seedNav

def entryMarket : List TokenView × ℚ := (Core.rebalanceViews "USDT", 1)

/-- The state that the loop decides on. -/
def decidedState : State := (markNav fundedState (priceMap entryMarket.1)).2

/-- The decision tick approves an entry. -/
def approvesEntry (input : TickInput) : Bool :=
  match Core.prepare Core.bareWorld.configFile decidedState input with
  | .error _ => false
  | .ok (ph, j) =>
      match ReceiptChain.append Core.bareWorld.receipts (Core.receiptArgs ph j) with
      | .error _ => false
      | .ok _ => j.approved

section

variable {env : Environ} {onPath : Bool} {backend : Backend} {seedNav : ℚ}

theorem start_unreadLoop (live : isLive (chosenBackend env))
    (made : makeBackend env onPath "live" = .ok backend)
    (unread : reconcilerOf env backend = .ok none)
    (seed : env.floatLiteral "START_NAV"
      (if chosenBackend env = "injective" then "0" else "500") = .ok seedNav) :
    start ⟨env, onPath, .ok (liveProfile "bsc")⟩ (some fundedBook) =
      .ok (unreadLoop env backend seedNav, fundedState) := by
  have read : readLoopConfig (liveProfile "bsc") = .ok (50, ["INJ"], ["USDT"]) := rfl
  have made' : setup ⟨env, onPath, .ok (liveProfile "bsc")⟩ =
      .ok (unreadLoop env backend seedNav) := by
    simp only [setup, live, if_true, made, read, unread, seed, bind, Except.bind, pure, Except.pure]
    rfl
  have marked : ¬(fundedState.highWaterMark.getD 0 = 0 ∧
      0 < (unreadLoop env backend seedNav).seedNav) := by
    have high : fundedState.highWaterMark.getD 0 ≠ 0 := by decide
    exact fun unmarked => high unmarked.1
  have seeded : seedHighWater (unreadLoop env backend seedNav) fundedState = fundedState :=
    if_neg marked
  simp only [start, made', bind, Except.bind, pure, Except.pure]
  rw [← fundedState, seeded]

/-- The environments without a source of balances start a loop that sends. -/
theorem start_of_unreconciled (unreconciled : Unreconciled env onPath) :
    ∃ backend seedNav, backend.sends ∧
      start ⟨env, onPath, .ok (liveProfile "bsc")⟩ (some fundedBook) =
        .ok (unreadLoop env backend seedNav, fundedState) := by
  rcases unreconciled.seed with ⟨seedNav, seed⟩
  rcases unreconciled.sends with ⟨chosen, installed⟩ | ⟨chosen, set⟩
  · have live : isLive (chosenBackend env) := .inl chosen
    have made : makeBackend env onPath "live" = .ok (.twak (.ofEnviron onPath none)) := by
      simp [makeBackend, chosen]
    refine ⟨_, seedNav, ?_, start_unreadLoop live made ?_ ?_⟩
    · simp [Backend.sends, TwakBackend.ofEnviron, installed]
    · exact (reconcilerOf_eq_none_iff live (by simp)).2 unreconciled.wallet
    · simpa [chosen] using seed
  · have live : isLive (chosenBackend env) := .inr (.inl chosen)
    have made : makeBackend env onPath "live" = .ok .maria := by
      rcases Option.isSome_iff_exists.1 set with ⟨url, found⟩
      simp [makeBackend, chosen, makeMaria, found]
    refine ⟨.maria, seedNav, trivial, start_unreadLoop live made ?_ ?_⟩
    · exact (reconcilerOf_eq_none_iff live (by simp)).2 unreconciled.wallet
    · simpa [chosen] using seed

theorem iteration_unreadLoop :
    iteration (unreadLoop env backend seedNav) entryIteration fundedState =
      decideOn (unreadLoop env backend seedNav) entryIteration entryMarket decidedState := by
  have warm : coldStart (unreadLoop env backend seedNav) fundedState = fundedState := by
    apply if_neg
    have funded : fundedState.stableUsd.getD 0 ≠ 0 := by decide
    exact fun cold => funded cold.1
  have read : reconcile (unreadLoop env backend seedNav) entryIteration
      (priceMap entryMarket.1) fundedState = some ([], fundedState) := by
    rw [← warm]
    rfl
  have market : entryIteration.market = .ok entryMarket := rfl
  have nothing : ¬decidedState.pendingIntent.isSome = true := by decide
  unfold iteration
  simp only [market, read]
  rw [← decidedState, if_neg nothing]
  rfl

theorem orders_of_approvesEntry {input : TickInput} (approves : approvesEntry input = true)
    (stages : input.persist = some (.ok ())) :
    ∃ j cid, Core.Orders Core.bareWorld decidedState input j cid := by
  unfold approvesEntry at approves
  rcases prepared : Core.prepare Core.bareWorld.configFile decidedState input with e | ⟨ph, j⟩
  · simp [prepared] at approves
  · rcases appended : ReceiptChain.append Core.bareWorld.receipts (Core.receiptArgs ph j) with
      e | ⟨log, receipt⟩
    · simp [prepared, appended] at approves
    · simp only [prepared, appended, decide_eq_true_eq] at approves
      exact ⟨j, _, (Core.orders_iff prepared appended).2 ⟨rfl, rfl, approves, stages⟩⟩

/-- The first iteration sends an order, and reads nothing before it. -/
theorem entry_sent : ∃ staged decision amount cid rest,
    (iteration (unreadLoop env backend seedNav) entryIteration fundedState).1 =
      .ticked :: .wrote staged :: .sent decision amount cid :: rest := by
  have approves : approvesEntry
      (tickInput (unreadLoop (fun _ => none) .mock 0) entryIteration entryMarket) = true := by
    decide +kernel
  have orders : ∃ j cid, Core.Orders entryIteration.world decidedState
      (tickInput (unreadLoop env backend seedNav) entryIteration entryMarket) j cid :=
    orders_of_approvesEntry approves rfl
  rcases orders with ⟨j, cid, orders⟩
  rw [iteration_unreadLoop]
  exact sent_of_orders rfl orders

end

theorem not_reconciledFirst {staged : State} {decision : Decision} {amount : ℚ} {cid : String}
    {rest : List LiveEvent} :
    ¬ReconciledFirst (.ticked :: .wrote staged :: .sent decision amount cid :: rest) := by
  intro first
  rcases first [.ticked, .wrote staged] _ rest rfl decision amount cid rfl with ⟨state, mem⟩
  simp at mem

theorem not_reconcilesFirst_of_unreconciled {env : Environ} {onPath : Bool}
    (unreconciled : Unreconciled env onPath) : ¬ReconcilesFirst env onPath := by
  rcases start_of_unreconciled unreconciled with ⟨backend, seedNav, sends, started⟩
  intro first
  have inOrder := first _ _ _ _ [entryIteration] started sends _ List.mem_cons_self
  rcases @entry_sent env backend seedNav with ⟨staged, decision, amount, cid, rest, sent⟩
  rw [sent] at inOrder
  exact not_reconciledFirst inOrder

/-- **When a deployment reconciles first.** Every run of the loop reads the balances before it
sends, in each iteration, unless the environment names no wallet and chooses the wallet tool
where it is installed, or the hosted backend where it has an address. -/
theorem reconciles_first_iff (env : Environ) (onPath : Bool) :
    ReconcilesFirst env onPath ↔ ¬Unreconciled env onPath := by
  constructor
  · intro first unreconciled
    exact not_reconcilesFirst_of_unreconciled unreconciled first
  · intro covered config disk loop state inputs started sends
    unfold start at started
    simp only [bind_eq_ok_iff, pure, Except.pure, Except.ok.injEq, Prod.mk.injEq] at started
    rcases started with ⟨_, done, rfl, -⟩
    apply reconciledFirst_loopRun
    rw [Option.isSome_iff_ne_none]
    intro unread
    exact covered (unreconciled_of_setup done sends unread)

def twakEnviron : Environ
  | "EXECUTION_BACKEND" => some "twak"
  | _ => none

/-- A wallet tool that is told no address of a wallet sends without reading a balance. -/
theorem twak_sends_unreconciled : ¬ReconcilesFirst twakEnviron true := by
  apply not_reconcilesFirst_of_unreconciled
  refine ⟨rfl, .inl ⟨by decide, rfl⟩, 500, ?_⟩
  decide +kernel

end Live

end SumplusTrader
