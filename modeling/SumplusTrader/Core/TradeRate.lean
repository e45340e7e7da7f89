import SumplusTrader.Core.SimulatedTick
import SumplusTrader.Core.WallClock

/-!
# Trades per hour over a run

This file follows the rate limit through a run that feeds the state of each tick into the
next one. The policy engine compares the limit with the counter `trades_last_hour`, and no
tick ever writes that counter, so what keeps trades apart is the interval alone: an executed
trade has passed it, measured from the time of the trade before, or it was clamped to the
exposure room and met no limit.

The trades of an hour are therefore a chain of proposals that admit one another.
`trades_per_hour_kept` says that the limit holds in every run whose ticks admit no longer
chain within an hour, and `spaced_of_interval` that this is so when the interval alone
accounts for the limit and the system clock is not ahead of the injected time.
-/

namespace SumplusTrader

def TickInput.now (input : TickInput) : ℚ := Core.enforcedNow input.nowTs input.clock

/-- A call of `tick`, with the world it finds. -/
structure Call where
  world : World
  state : State
  input : TickInput

namespace Core

/-- The calls of a run. A call that raises returns no state and ends the run. -/
def calls (world : World) (state : State) : List TickInput → List Call
  | [] => []
  | input :: inputs =>
      ⟨world, state, input⟩ :: match tick world state input with
        | (_, .error _) => []
        | (fx, .ok (_, newState)) => calls fx.world newState inputs

/-- The result of the call says that its trade was executed. -/
def executes (call : Call) : Bool :=
  match (tick call.world call.state call.input).2 with
  | .error _ => false
  | .ok (result, _) => result.executed

/-- The call falls into the hour from `start` on. -/
def inHour (start : ℚ) (call : Call) : Bool :=
  start ≤ call.input.now ∧ call.input.now < start + 3600

/-- The number of trades executed in the hour from `start` on. -/
def tradesInHour (start : ℚ) (taken : List Call) : ℕ :=
  ((taken.filter executes).filter (inHour start)).length

/-- The seconds from a trade to a reading of the system clock. -/
def secondsAfter (last wall : ℚ) : ℚ := if last ≠ 0 then wall - last else 1000000000

/-- The call proposes a trade. -/
def Proposes (call : Call) : Prop :=
  ∃ ph j, prepare call.world.configFile call.state call.input = .ok (ph, j) ∧ j.decision.isTrade

/-- The trade of the call is clamped to the exposure room. -/
def Clamped (call : Call) : Prop :=
  ∃ ph j, prepare call.world.configFile call.state call.input = .ok (ph, j) ∧
    (PolicyEngine.ofConfig j.cfg).ExceedsRoom j.decision
      (portfolioView (buildPortfolioState call.state j.views call.input.stateClock) call.state)

/-- The call proposes a trade that is clamped, or its counter is below the limit. -/
def Admits (cfg : Config) (call : Call) : Prop :=
  Proposes call ∧
    (Clamped call ∨ (call.state.tradesLastHour : ℚ) < cfg.risk.maxTradesPerHour.value)

/-- The call admits a trade after one at the time `last`. -/
def AdmitsAfter (cfg : Config) (last : ℚ) (call : Call) : Prop :=
  Proposes call ∧
    (Clamped call ∨ (call.state.tradesLastHour : ℚ) < cfg.risk.maxTradesPerHour.value ∧
      Survival.interval cfg ≤ secondsAfter last call.input.stateClock)

/-- Each call admits a trade after the one before, the first after a trade at `last`. -/
def AdmitsFrom (cfg : Config) : ℚ → List Call → Prop
  | _, [] => True
  | last, call :: chain => AdmitsAfter cfg last call ∧ AdmitsFrom cfg call.input.now chain

/-- A chain of calls that may all execute a trade. -/
def TradeChain (cfg : Config) : List Call → Prop
  | [] => True
  | call :: chain => Admits cfg call ∧ AdmitsFrom cfg call.input.now chain

/-- No chain of trades within an hour is longer than the limit. -/
def SpacedWithinHours (cfg : Config) (taken : List Call) : Prop :=
  ∀ start chain, chain.Sublist (taken.filter (inHour start)) → TradeChain cfg chain →
    (chain.length : ℚ) ≤ cfg.risk.maxTradesPerHour.value

section Call

variable {cfg : Config} {world : World} {state newState : State} {input : TickInput}
  {result : TickResult}

theorem Enforces.of_configFile_eq {other : World} (enforces : Enforces world input cfg)
    (same : other.configFile = world.configFile) : Enforces other input cfg := by
  rcases enforces with ⟨json, enforced, read⟩
  refine ⟨json, ?_, read⟩
  rw [same]
  exact enforced

/-- An executed trade was clamped, or it has passed the interval and the counter. -/
theorem admitsAfter_of_executed (enforces : Enforces world input cfg)
    (ended : (tick world state input).2 = .ok (result, newState))
    (executed : result.executed = true) :
    AdmitsAfter cfg state.lastTradeTs ⟨world, state, input⟩ := by
  rcases tick_state (Prod.ext rfl ended) with ⟨ph, j, seq, prepared, -, -, approved⟩
  rcases judgement_of_prepare enforces prepared with
    ⟨views, dataTs, chain, quote, intent, -, -, -, rfl⟩
  rcases approved executed with ⟨allowed, trade⟩
  rcases PolicyEngine.check_cases (PolicyEngine.ofConfig cfg)
    (portfolioView (buildPortfolioState state views input.stateClock) state)
    (marketView cfg views dataTs input.now) trade with
    ⟨reason, rung, verdict⟩ | ⟨-, exceeds, -⟩ | ⟨-, -, within, -⟩
  · exact absurd (verdict ▸ allowed) (PolicyEngine.not_allowed_rejected reason rung)
  · exact ⟨⟨ph, _, prepared, trade⟩, .inl ⟨ph, _, prepared, exceeds⟩⟩
  · exact ⟨⟨ph, _, prepared, trade⟩, .inr within⟩

/-- A tick moves the time of the last trade exactly when it executes one. -/
theorem lastTradeTs_of_tick (enforces : Enforces world input cfg)
    (ended : (tick world state input).2 = .ok (result, newState)) :
    newState.lastTradeTs = if result.executed then input.now else state.lastTradeTs := by
  rcases tick_state (Prod.ext rfl ended) with ⟨ph, j, seq, prepared, -, rfl, -⟩
  rcases judgement_of_prepare enforces prepared with
    ⟨views, dataTs, chain, quote, intent, -, -, -, rfl⟩
  cases result.executed with
  | false => rfl
  | true => rfl

end Call

section Runs

variable {cfg : Config} {inputs : List TickInput}

theorem executes_eq {call : Call} {result : TickResult} {newState : State}
    (ended : (tick call.world call.state call.input).2 = .ok (result, newState)) :
    executes call = result.executed := by
  simp only [executes, ended]

/-- The executed calls of a run are a chain of trades. -/
theorem admitsFrom_filter_executes {world : World} {state : State}
    (enforces : ∀ input ∈ inputs, Enforces world input cfg) :
    AdmitsFrom cfg state.lastTradeTs ((calls world state inputs).filter executes) := by
  induction inputs generalizing world state with
  | nil => trivial
  | cons input inputs ih =>
      rw [List.forall_mem_cons] at enforces
      rcases ticked : tick world state input with ⟨fx, e | ⟨result, newState⟩⟩
      · simp [calls, executes, ticked, AdmitsFrom]
      · have ended : (tick world state input).2 = .ok (result, newState) := by rw [ticked]
        have configFile : fx.world.configFile = world.configFile := by
          have kept := configFile_tick world state input
          rwa [ticked] at kept
        have later : AdmitsFrom cfg newState.lastTradeTs
            ((calls fx.world newState inputs).filter executes) := by
          apply ih
          intro other mem
          exact (enforces.2 other mem).of_configFile_eq configFile
        have moved := lastTradeTs_of_tick enforces.1 ended
        have flag : executes ⟨world, state, input⟩ = result.executed := executes_eq ended
        simp only [calls, ticked]
        cases executed : result.executed with
        | false =>
            simp only [executed, Bool.false_eq_true, if_false] at flag moved
            rw [List.filter_cons_of_neg (by simp [flag])]
            rwa [moved] at later
        | true =>
            simp only [executed, if_true] at flag moved
            rw [List.filter_cons_of_pos flag]
            refine ⟨admitsAfter_of_executed enforces.1 ended executed, ?_⟩
            rwa [moved] at later

theorem isPrefix_inputs (world : World) (state : State) (inputs : List TickInput) :
    (calls world state inputs).map Call.input <+: inputs := by
  induction inputs generalizing world state with
  | nil => exact List.prefix_rfl
  | cons input inputs ih =>
      simp only [calls, List.map_cons, List.prefix_cons_inj]
      rcases tick world state input with ⟨fx, e | ⟨result, newState⟩⟩
      · exact List.nil_prefix
      · exact ih fx.world newState

end Runs

section Hour

variable {cfg : Config} {taken : List Call} {last start : ℚ}

/-- The times of the calls do not decrease. -/
def InOrder (taken : List Call) : Prop :=
  taken.Pairwise fun earlier later => earlier.input.now ≤ later.input.now

theorem inOrder_calls {inputs : List TickInput}
    (ordered : inputs.Pairwise fun earlier later => earlier.now ≤ later.now) (world : World)
    (state : State) : InOrder (calls world state inputs) := by
  have part := (isPrefix_inputs world state inputs).sublist
  have taken := ordered.sublist part
  rwa [List.pairwise_map] at taken

/-- The calls of an hour are an initial part of the calls from its start on. -/
theorem admitsFrom_filter_inHour (ordered : InOrder taken)
    (reached : ∀ call ∈ taken, start ≤ call.input.now) (chain : AdmitsFrom cfg last taken) :
    AdmitsFrom cfg last (taken.filter (inHour start)) := by
  induction taken generalizing last with
  | nil => trivial
  | cons call taken ih =>
      rcases List.pairwise_cons.1 ordered with ⟨first, ordered⟩
      rw [List.forall_mem_cons] at reached
      by_cases inside : call.input.now < start + 3600
      · have keeps : inHour start call = true := by simp [inHour, reached.1, inside]
        rw [List.filter_cons_of_pos keeps]
        exact ⟨chain.1, ih ordered reached.2 chain.2⟩
      · have none : (call :: taken).filter (inHour start) = [] := by
          rw [List.filter_eq_nil_iff]
          intro other mem
          have late : start + 3600 ≤ other.input.now := by
            rcases List.mem_cons.1 mem with rfl | later
            · exact not_lt.1 inside
            · exact le_trans (not_lt.1 inside) (first other later)
          simp [inHour, not_lt.2 late]
        rw [none]
        trivial

theorem AdmitsAfter.admits {call : Call} (admits : AdmitsAfter cfg last call) : Admits cfg call := by
  rcases admits with ⟨proposes, clamped | ⟨below, -⟩⟩
  · exact ⟨proposes, .inl clamped⟩
  · exact ⟨proposes, .inr below⟩

theorem tradeChain_filter_inHour (ordered : InOrder taken) (chain : AdmitsFrom cfg last taken) :
    TradeChain cfg (taken.filter (inHour start)) := by
  induction taken generalizing last with
  | nil => trivial
  | cons call taken ih =>
      rcases List.pairwise_cons.1 ordered with ⟨first, ordered⟩
      by_cases inside : inHour start call = true
      · have reached : ∀ other ∈ taken, start ≤ other.input.now := by
          intro other mem
          have begins : start ≤ call.input.now := by
            simp only [inHour, Bool.decide_and, Bool.and_eq_true, decide_eq_true_eq] at inside
            exact inside.1
          exact le_trans begins (first other mem)
        rw [List.filter_cons_of_pos inside]
        exact ⟨chain.1.admits, admitsFrom_filter_inHour ordered reached chain.2⟩
      · rw [List.filter_cons_of_neg inside]
        exact ih ordered chain.2

end Hour

/-- **The hourly limit is kept** in every run whose ticks admit no longer chain of trades
within an hour. -/
theorem trades_per_hour_kept (world : World) (state : State) (cfg : Config)
    (inputs : List TickInput) (enforces : ∀ input ∈ inputs, Enforces world input cfg)
    (ordered : inputs.Pairwise fun earlier later => earlier.now ≤ later.now)
    (spaced : SpacedWithinHours cfg (calls world state inputs)) (start : ℚ) :
    (tradesInHour start (calls world state inputs) : ℚ) ≤ cfg.risk.maxTradesPerHour.value := by
  have part : ((calls world state inputs).filter executes).Sublist (calls world state inputs) :=
    List.filter_sublist
  have sorted : InOrder ((calls world state inputs).filter executes) :=
    (inOrder_calls ordered world state).sublist part
  have chain : TradeChain cfg (((calls world state inputs).filter executes).filter
      (inHour start)) :=
    tradeChain_filter_inHour sorted (admitsFrom_filter_executes enforces)
  exact spaced start _ (part.filter _) chain

section Interval

variable {cfg : Config} {last stop : ℚ} {chain : List Call}

/-- The injected time is not behind the system clock, and the trade is not clamped. -/
def InStep (call : Call) : Prop :=
  call.input.now ≠ 0 ∧ call.input.stateClock ≤ call.input.now ∧ ¬Clamped call

/-- A chain of trades in step takes the interval between any two of them. -/
theorem interval_of_admitsFrom (inStep : ∀ call ∈ chain, InStep call) (nonzero : last ≠ 0)
    (before : last < stop) (ends : ∀ call ∈ chain, call.input.now < stop)
    (admits : AdmitsFrom cfg last chain) :
    last + chain.length * Survival.interval cfg < stop := by
  induction chain generalizing last with
  | nil => simpa using before
  | cons call chain ih =>
      rw [List.forall_mem_cons] at inStep ends
      rcases inStep.1 with ⟨nonzero', ahead, notClamped⟩
      rcases admits with ⟨⟨-, clamped | ⟨-, elapsed⟩⟩, admits⟩
      · exact absurd clamped notClamped
      · have later := ih inStep.2 nonzero' ends.1 ends.2 admits
        rw [secondsAfter, if_pos nonzero] at elapsed
        push_cast [List.length_cons]
        linarith

/-- When the interval accounts for the limit, trades in step keep within it. -/
theorem spaced_of_interval {taken : List Call} (limit : ℕ)
    (hourly : cfg.risk.maxTradesPerHour.value = limit)
    (enough : 3600 ≤ limit * Survival.interval cfg) (inStep : ∀ call ∈ taken, InStep call) :
    SpacedWithinHours cfg taken := by
  intro start chain part trades
  rw [hourly]
  rcases chain with _ | ⟨call, chain⟩
  · simp
  · have within : ∀ other ∈ call :: chain, InStep other ∧ start ≤ other.input.now ∧
        other.input.now < start + 3600 := by
      intro other mem
      have taken := List.mem_filter.1 (part.subset mem)
      simp only [inHour, Bool.decide_and, Bool.and_eq_true, decide_eq_true_eq] at taken
      exact ⟨inStep other taken.1, taken.2⟩
    rw [List.forall_mem_cons] at within
    rcases within with ⟨⟨first, begins, ends⟩, within⟩
    have span := interval_of_admitsFrom (fun other mem => (within other mem).1) first.1 ends
      (fun other mem => (within other mem).2.2) trades.2
    have positive : 0 < Survival.interval cfg := by
      by_contra notPositive
      have product : (limit : ℚ) * Survival.interval cfg ≤ 0 :=
        mul_nonpos_of_nonneg_of_nonpos limit.cast_nonneg (not_lt.1 notPositive)
      linarith
    have fewer : (chain.length : ℚ) < limit := by
      apply lt_of_mul_lt_mul_right _ positive.le
      linarith
    have fewer' : chain.length < limit := by exact_mod_cast fewer
    exact_mod_cast fewer'

end Interval

/-- The times of the ticks of a run without an executor, and which of them trade. -/
def simulatedTrades (configFile : Option String) (state : State) :
    List TickInput → List (ℚ × Bool)
  | [] => []
  | input :: inputs =>
      match prepare configFile state input with
      | .error _ => [(input.now, false)]
      | .ok (_, j) =>
          (input.now, (simulated state j).1) ::
            simulatedTrades configFile (simulated state j).2 inputs

theorem calls_simulated {world : World} {state : State} {inputs : List TickInput}
    (none : ∀ input ∈ inputs, input.executor = none) (appendable : Appendable world) :
    (calls world state inputs).map (fun call => (call.input.now, executes call)) =
      simulatedTrades world.configFile state inputs := by
  induction inputs generalizing world state with
  | nil => rfl
  | cons input inputs ih =>
      rw [List.forall_mem_cons] at none
      have kept := tick_of_no_executor none.1 appendable state
      have configFile := configFile_tick world state input
      simp only [calls, simulatedTrades, List.map_cons]
      rcases prepared : prepare world.configFile state input with e | ⟨ph, j⟩
      · rcases ticked : tick world state input with ⟨fx, e' | ended⟩
        · simp [executes, ticked]
        · simp [ticked, prepared, Except.map] at kept
      · rcases ticked : tick world state input with ⟨fx, e' | ⟨result, newState⟩⟩
        · simp [ticked, prepared, Except.map] at kept
        · rw [ticked, prepared] at kept
          rw [ticked] at configFile
          rcases kept with ⟨appendable', ended⟩
          have ended' : (result.executed, newState) = simulated state j := Except.ok.inj ended
          have later : (calls fx.world newState inputs).map
              (fun call => (call.input.now, executes call)) =
                simulatedTrades world.configFile newState inputs := configFile ▸ ih none.2 appendable'
          have flag : executes ⟨world, state, input⟩ = result.executed :=
            executes_eq (by rw [ticked])
          simp [flag, later, ← ended']

theorem tradesInHour_eq (start : ℚ) (taken : List Call) :
    tradesInHour start taken =
      ((taken.map fun call => (call.input.now, executes call)).filter fun stamp =>
        stamp.2 ∧ start ≤ stamp.1 ∧ stamp.1 < start + 3600).length := by
  rw [List.filter_map, List.length_map, tradesInHour, List.filter_filter]
  congr 2
  funext call
  cases executed : executes call with
  | false => simp [executed]
  | true => simp [executed, inHour]

/-- A profile that trades at once and rebalances down after a quarter of an hour. -/
def hourlyProfile (limit : ℤ) : Json :=
  let number := fun n : ℤ => Json.num (.int n)
  let pair := fun fromToken toToken => Json.obj [("chain", .str "injective"),
    ("from", .str fromToken), ("to", .str toToken)]
  .obj [("chains", .obj [("injective", .obj [("enabled", .bool true)])]),
    ("universe", .arr [.str "INJ"]), ("quote_tokens", .arr [.str "USDT"]),
    ("allowed_tokens", .arr [.str "USDT", .str "INJ"]),
    ("allowed_pairs", .arr [pair "USDT" "INJ", pair "INJ" "USDT"]),
    ("min_trades", .obj [("target_risky_ratio", number 0), ("rebalance_band", number 0)]),
    ("risk", .obj [("max_single_trade_usd", number 50), ("max_single_trade_pct", number 1),
      ("max_trades_per_hour", number limit), ("min_trade_interval_seconds", number 900),
      ("stop_loss_pct", number 2), ("take_profit_pct", number 4),
      ("max_hold_hours", number 48)])]

/-- A tick under that profile at a time that is also the reading of the system clock. -/
def hourlyInput (limit : ℤ) (now : ℚ) : TickInput :=
  { flatteningInput 0 with
    cfg := some (hourlyProfile limit)
    nowTs := some now
    market := some (rebalanceViews "USDT", now)
    clock := now
    stateClock := now }

/-- Two calls a quarter of an hour apart, from a book of a hundred dollars. -/
def hourlyCalls (limit : ℤ) : List Call :=
  calls bareWorld (hundredBook Dict.empty 100) [hourlyInput limit 1000, hourlyInput limit 1900]

theorem hourlyProfile_enforced (limit : ℤ) : ∃ cfg : Config, cfg.risk.maxTradesPerHour.value = limit ∧
    ∀ now, Enforces bareWorld (hourlyInput limit now) cfg := by
  have read : (Config.ofJson (hourlyProfile limit)).isSome := rfl
  rcases Option.isSome_iff_exists.1 read with ⟨cfg, found⟩
  have hourly : (Config.ofJson (hourlyProfile limit)).map (fun cfg =>
      cfg.risk.maxTradesPerHour) = some (.int limit) := rfl
  rw [found, Option.map_some, Option.some.injEq] at hourly
  refine ⟨cfg, ?_, fun now => ⟨hourlyProfile limit, rfl, found⟩⟩
  rw [hourly]
  rfl

/-- The calls of an hour are no more than the inputs of that hour. -/
theorem length_inHour_le (world : World) (state : State) (inputs : List TickInput) (start : ℚ) :
    ((calls world state inputs).filter (inHour start)).length ≤
      (inputs.filter fun input => start ≤ input.now ∧ input.now < start + 3600).length := by
  have part := (isPrefix_inputs world state inputs).sublist.filter fun input =>
    start ≤ input.now ∧ input.now < start + 3600
  have fewer := part.length_le
  rw [List.filter_map, List.length_map] at fewer
  exact fewer

/-- Four ticks, no three of them within an hour. -/
def fourInputs : List TickInput :=
  [hourlyInput 2 1000, hourlyInput 2 1900, hourlyInput 2 5000, hourlyInput 2 5900]

theorem length_fourInputs_le (start : ℚ) :
    (fourInputs.filter fun input => start ≤ input.now ∧ input.now < start + 3600).length ≤ 2 := by
  have now : ∀ time : ℚ, (hourlyInput 2 time).now = time := by
    simp [TickInput.now, hourlyInput, enforcedNow]
  simp only [fourInputs, List.filter_cons, List.filter_nil, now, decide_eq_true_eq]
  split_ifs <;> grind

theorem trades_per_hour_kept_fourInputs :
    tradesInHour 1000 (calls bareWorld (hundredBook Dict.empty 100) fourInputs) = 2 ∧
      ∀ start : ℚ,
        tradesInHour start (calls bareWorld (hundredBook Dict.empty 100) fourInputs) ≤ 2 := by
  constructor
  · rw [tradesInHour_eq, calls_simulated _ (appendable_of_empty rfl)]
    · decide +kernel
    · simp [fourInputs, hourlyInput, flatteningInput]
  · intro start
    rcases hourlyProfile_enforced 2 with ⟨cfg, hourly, enforces⟩
    have enforced : ∀ input ∈ fourInputs, Enforces bareWorld input cfg := by
      simp [fourInputs, enforces]
    have ordered : fourInputs.Pairwise fun earlier later => earlier.now ≤ later.now := by
      decide +kernel
    have spaced : SpacedWithinHours cfg
        (calls bareWorld (hundredBook Dict.empty 100) fourInputs) := by
      intro start chain part trades
      have short := part.length_le.trans
        ((length_inHour_le _ _ _ start).trans (length_fourInputs_le start))
      rw [hourly]
      exact_mod_cast short
    have kept := trades_per_hour_kept bareWorld (hundredBook Dict.empty 100) cfg fourInputs enforced
      ordered spaced start
    rw [hourly] at kept
    exact_mod_cast kept

/-- Under a limit of one, both of these calls execute a trade within the hour. -/
theorem two_trades_within_hour :
    (∃ cfg : Config, cfg.risk.maxTradesPerHour.value = 1 ∧
        ∀ now, Enforces bareWorld (hourlyInput 1 now) cfg) ∧
      tradesInHour 1000 (hourlyCalls 1) = 2 := by
  constructor
  · rcases hourlyProfile_enforced 1 with ⟨cfg, hourly, enforces⟩
    exact ⟨cfg, by simpa using hourly, enforces⟩
  · rw [tradesInHour_eq, hourlyCalls, calls_simulated _ (appendable_of_empty rfl)]
    · decide +kernel
    · simp [hourlyInput, flatteningInput]

end Core

end SumplusTrader
