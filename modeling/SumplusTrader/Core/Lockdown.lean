import SumplusTrader.Core.TradeRate

/-!
# Lockdown

On the highest rung, `stablecoin_mode`, the strategy flattens the book and proposes nothing
else. This file follows a flat book through a run in which the net asset value is marked after
every tick. As long as the book is worth no more than its high-water mark, marking keeps both
numbers, so the drawdown stays where it is and the lockdown never ends (`lockdown_absorbing`).

A book worth more than its mark, which marking never leaves behind, gets a new mark.
-/

namespace SumplusTrader

/-- The rung of a drawdown that has reached the highest threshold. -/
theorem reachedRung_of_top {ladder : List Rung} {top : Rung} (last : ladder.getLast? = some top)
    {drawdownPct : ℚ} (reached : top.atPct ≤ drawdownPct) :
    reachedRung ladder drawdownPct = top.action := by
  rcases List.getLast?_eq_some_iff.1 last with ⟨lower, rfl⟩
  rw [reachedRung, List.foldl_append, List.foldl_cons, List.foldl_nil, if_pos reached]

/-- A book of cash alone, with its value and its high-water mark. -/
structure State.Flat (state : State) (nav hwm : ℚ) : Prop where
  positions : state.positions = Dict.empty
  nav_eq : state.nav = some nav
  stable_eq : state.stableUsd = some nav
  mark_eq : state.highWaterMark = some hwm

namespace Survival

variable {views : List TokenView} {portfolio : PortfolioState} {cfg : Config} {nowTs : ℚ}
  {quote chain : String} {intent : Intent}

/-- In stablecoin mode the strategy holds once the book is empty. -/
theorem eq_hold_of_lockdown (decided : Decided views portfolio cfg nowTs quote chain intent)
    (lockdown : ladderRung portfolio.drawdownPct cfg = "stablecoin_mode")
    (empty : portfolio.positions.entries = []) : intent = hold views cfg portfolio quote chain := by
  cases decided with
  | exit entry mem =>
      rw [empty] at mem
      cases mem
  | enter _ permitted => exact absurd permitted (not_canTakeRisk_of_restricted (.inr lockdown))
  | rebalanceUp _ _ ready => exact absurd lockdown ready.2
  | rebalanceDown _ _ ready => exact absurd lockdown ready.2
  | hold => rfl

end Survival

namespace Core

section Turn

variable {cfg : Config} {nav hwm threshold : ℚ} {world : World} {state : State}
  {input : TickInput}

theorem flat_markNav (flat : state.Flat nav hwm) (below : nav ≤ hwm) (price : Dict String ℚ) :
    (markNav state price).2.Flat nav hwm := by
  have nothing : markedUsd state price = 0 := by
    rw [markedUsd, flat.positions]
    rfl
  have worth : state.stable + markedUsd state price = nav := by
    rw [nothing, add_zero, State.stable, flat.stable_eq, Option.getD_some]
  refine ⟨flat.positions, ?_, flat.stable_eq, ?_⟩
  · simp only [markNav, worth]
  · simp only [markNav, worth, flat.mark_eq, Option.getD_some, max_eq_left below]

/-- A flat book that has fallen to the highest threshold is on the highest rung. -/
theorem ladderRung_of_flat (flat : state.Flat nav hwm)
    (top : (sortedLadder cfg.drawdownLadder).getLast? = some ⟨threshold, "stablecoin_mode"⟩)
    (positive : 0 < nav) (below : nav ≤ hwm) (deep : threshold ≤ (hwm - nav) / hwm * 100)
    (views : List TokenView) (wall : ℚ) :
    Survival.ladderRung (buildPortfolioState state views wall).drawdownPct cfg =
      "stablecoin_mode" := by
  have shown : (buildPortfolioState state views wall).drawdownPct = drawdownPct nav hwm := by
    simp only [buildPortfolioState, State.highWater, State.navOrDefault, flat.nav_eq, flat.mark_eq,
      Option.getD_some]
  rw [shown, drawdownPct, if_pos (positive.trans_le below)]
  exact reachedRung_of_top top (le_max_of_le_right deep)

theorem entries_strategyPositions_of_flat (flat : state.Flat nav hwm) :
    (strategyPositions state).entries = [] := by
  rw [strategyPositions, flat.positions]
  rfl

/-- A tick on a flat book in lockdown judges that it holds. -/
theorem side_eq_hold_of_prepare (enforces : Enforces world input cfg) (flat : state.Flat nav hwm)
    (top : (sortedLadder cfg.drawdownLadder).getLast? = some ⟨threshold, "stablecoin_mode"⟩)
    (positive : 0 < nav) (below : nav ≤ hwm) (deep : threshold ≤ (hwm - nav) / hwm * 100)
    {ph : String} {j : Judgement}
    (prepared : prepare world.configFile state input = .ok (ph, j)) : j.decision.side = .hold := by
  rcases judgement_of_prepare enforces prepared with
    ⟨views, dataTs, chain, quote, intent, -, -, decided, rfl⟩
  have held := Survival.eq_hold_of_lockdown decided
    (ladderRung_of_flat flat top positive below deep views input.stateClock)
    (entries_strategyPositions_of_flat flat)
  rw [held]
  rfl

theorem not_approved_of_hold {j : Judgement} (holds : j.decision.side = .hold) : ¬j.approved := by
  rintro ⟨-, trade, -⟩
  rw [holds] at trade
  simp at trade

/-- What a tick on a flat book in lockdown comes to. -/
theorem tick_of_lockdown (enforces : Enforces world input cfg) (flat : state.Flat nav hwm)
    (top : (sortedLadder cfg.drawdownLadder).getLast? = some ⟨threshold, "stablecoin_mode"⟩)
    (positive : 0 < nav) (below : nav ≤ hwm) (deep : threshold ≤ (hwm - nav) / hwm * 100)
    {result : TickResult} {newState : State}
    (ended : (tick world state input).2 = .ok (result, newState)) :
    result.decision.side = .hold ∧ result.executed = false ∧ newState.Flat nav hwm := by
  rcases tick_state (Prod.ext rfl ended) with ⟨ph, j, seq, prepared, decision, booked, approved⟩
  have holds := side_eq_hold_of_prepare enforces flat top positive below deep prepared
  have unexecuted : result.executed = false := by
    rw [← Bool.not_eq_true]
    exact fun executed => not_approved_of_hold holds (approved executed)
  refine ⟨decision ▸ holds, unexecuted, ?_⟩
  rw [booked, unexecuted]
  exact ⟨flat.positions, flat.nav_eq, flat.stable_eq, flat.mark_eq⟩

end Turn

/-- The state after a tick and the marking that follows it. A tick that raises leaves the state
and is not followed by a marking. -/
def markedAfter (ended : Except PyError (TickResult × State)) (state : State)
    (price : Dict String ℚ) : State :=
  match ended with
  | .error _ => state
  | .ok (_, newState) => (markNav newState price).2

/-- The calls of a run that marks the net asset value after every tick. -/
def markedCalls (world : World) (state : State) : List (TickInput × Dict String ℚ) → List Call
  | [] => []
  | (input, price) :: turns =>
      ⟨world, state, input⟩ :: markedCalls (tick world state input).1.world
        (markedAfter (tick world state input).2 state price) turns

/-- The state after such a run. -/
def markedState (world : World) (state : State) : List (TickInput × Dict String ℚ) → State
  | [] => state
  | (input, price) :: turns =>
      markedState (tick world state input).1.world
        (markedAfter (tick world state input).2 state price) turns

/-- A call on the flat book holds: its decision is a hold, it sends no order, and it books no
trade. -/
structure Idles (nav hwm : ℚ) (call : Call) : Prop where
  flat : call.state.Flat nav hwm
  holds : ∀ result newState, (tick call.world call.state call.input).2 = .ok (result, newState) →
    result.decision.side = .hold ∧ result.executed = false ∧ newState.Flat nav hwm
  noOrder : ∀ decision amountUsd cid,
    Event.orderSent decision amountUsd cid ∉ (tick call.world call.state call.input).1.events

section Run

variable {cfg : Config} {nav hwm threshold : ℚ} {world : World} {state : State}
  {input : TickInput}

theorem idles_of_lockdown (enforces : Enforces world input cfg) (flat : state.Flat nav hwm)
    (top : (sortedLadder cfg.drawdownLadder).getLast? = some ⟨threshold, "stablecoin_mode"⟩)
    (positive : 0 < nav) (below : nav ≤ hwm) (deep : threshold ≤ (hwm - nav) / hwm * 100) :
    Idles nav hwm ⟨world, state, input⟩ := by
  refine ⟨flat, ?_, ?_⟩
  · intro result newState ended
    exact tick_of_lockdown enforces flat top positive below deep ended
  · intro decision amountUsd cid mem
    rcases mem_events_of_tick mem with ⟨ph, j, log, receipt, prepared, -, same | permitted⟩
    · cases same
    · have holds := side_eq_hold_of_prepare enforces flat top positive below deep prepared
      exact not_approved_of_hold holds permitted.1

theorem flat_markedAfter (enforces : Enforces world input cfg) (flat : state.Flat nav hwm)
    (top : (sortedLadder cfg.drawdownLadder).getLast? = some ⟨threshold, "stablecoin_mode"⟩)
    (positive : 0 < nav) (below : nav ≤ hwm) (deep : threshold ≤ (hwm - nav) / hwm * 100)
    (price : Dict String ℚ) :
    (markedAfter (tick world state input).2 state price).Flat nav hwm := by
  cases ended : (tick world state input).2 with
  | error e => exact flat
  | ok done =>
      rcases done with ⟨result, newState⟩
      have kept := (tick_of_lockdown enforces flat top positive below deep ended).2.2
      exact flat_markNav kept below price

end Run

/-- **Lockdown is absorbing.** From a book of cash alone, worth no more than its high-water mark,
that has fallen to the highest threshold, every tick of every run holds, and the value, the mark
and the empty book stay as they are. -/
theorem lockdown_absorbing (cfg : Config) (threshold nav hwm : ℚ)
    (top : (sortedLadder cfg.drawdownLadder).getLast? = some ⟨threshold, "stablecoin_mode"⟩)
    (positive : 0 < nav) (below : nav ≤ hwm) (deep : threshold ≤ (hwm - nav) / hwm * 100)
    (world : World) (state : State) (flat : state.Flat nav hwm)
    (turns : List (TickInput × Dict String ℚ))
    (enforces : ∀ turn ∈ turns, Enforces world turn.1 cfg) :
    (∀ call ∈ markedCalls world state turns, Idles nav hwm call) ∧
      (markedState world state turns).Flat nav hwm := by
  induction turns generalizing world state with
  | nil => exact ⟨by simp [markedCalls], flat⟩
  | cons turn turns ih =>
      rcases turn with ⟨input, price⟩
      rw [List.forall_mem_cons] at enforces
      have kept := flat_markedAfter enforces.1 flat top positive below deep price
      have later : ∀ turn ∈ turns, Enforces (tick world state input).1.world turn.1 cfg := by
        intro turn mem
        exact (enforces.2 turn mem).of_configFile_eq (configFile_tick world state input)
      rcases ih _ _ kept later with ⟨idles, ends⟩
      refine ⟨?_, ends⟩
      intro call mem
      rcases List.mem_cons.1 mem with rfl | mem
      · exact idles_of_lockdown enforces.1 flat top positive below deep
      · exact idles call mem

/-- A profile that flattens the book from a given drawdown on. -/
def lockdownProfile (threshold : ℤ) : Json :=
  let number := fun n : ℤ => Json.num (.int n)
  .obj [("chains", .obj [("injective", .obj [("enabled", .bool true)])]),
    ("universe", .arr [.str "INJ"]), ("quote_tokens", .arr [.str "USDT"]),
    ("allowed_tokens", .arr [.str "USDT", .str "INJ"]), ("allowed_pairs", .arr []),
    ("drawdown_ladder", .arr [.obj [("at_pct", number threshold),
      ("action", .str "stablecoin_mode")]]),
    ("risk", .obj [("max_single_trade_usd", number 5), ("max_trades_per_hour", number 4),
      ("min_trade_interval_seconds", number 900), ("stop_loss_pct", number 2),
      ("take_profit_pct", number 4), ("max_hold_hours", number 48)])]

def lockdownInput (threshold : ℤ) : TickInput :=
  { flatteningInput 5 with cfg := some (lockdownProfile threshold) }

/-- A book of cash alone. -/
def cashBook (nav hwm : ℚ) : State where
  positions := Dict.empty
  nav := some nav
  portfolioValueUsd := none
  highWaterMark := some hwm
  stableUsd := some nav
  lastTradeTs := 0
  tradesThisWeek := 0
  tradesLastHour := 0
  intentSeq := 0
  pendingIntent := none

theorem lockdownProfile_top (threshold : ℤ) :
    ∃ cfg, Enforces bareWorld (lockdownInput threshold) cfg ∧
      (sortedLadder cfg.drawdownLadder).getLast? = some ⟨threshold, "stablecoin_mode"⟩ := by
  have read : (Config.ofJson (lockdownProfile threshold)).isSome := rfl
  rcases Option.isSome_iff_exists.1 read with ⟨cfg, found⟩
  have ladder : (Config.ofJson (lockdownProfile threshold)).map Config.drawdownLadder =
      some [⟨(threshold : ℚ), "stablecoin_mode"⟩] := rfl
  rw [found, Option.map_some, Option.some.injEq] at ladder
  refine ⟨cfg, ⟨lockdownProfile threshold, rfl, found⟩, ?_⟩
  rw [ladder]
  rfl

theorem lockdown_absorbing_cashBook :
    (markedState bareWorld (cashBook 100 200)
      [(lockdownInput 1, Dict.empty), (lockdownInput 1, Dict.empty)]).Flat 100 200 := by
  rcases lockdownProfile_top 1 with ⟨cfg, enforces, top⟩
  refine (lockdown_absorbing cfg 1 100 200 (by rw [top]; simp) (by norm_num) (by norm_num)
    (by norm_num) bareWorld (cashBook 100 200) ⟨rfl, rfl, rfl, rfl⟩ _ ?_).2
  intro turn mem
  simp only [List.mem_cons, List.not_mem_nil, or_false, or_self] at mem
  rw [mem]
  exact enforces

/-- Marking raises the mark of a book that is worth more than it. A threshold below zero is the
only one such a book has fallen to. -/
theorem mark_raised_in_lockdown :
    (∃ cfg, Enforces bareWorld (lockdownInput (-10)) cfg ∧
        (sortedLadder cfg.drawdownLadder).getLast? = some ⟨((-10 : ℤ) : ℚ), "stablecoin_mode"⟩) ∧
      (cashBook 105 100).Flat 105 100 ∧ ((-10 : ℤ) : ℚ) ≤ (100 - 105) / 100 * 100 ∧
      (markedState bareWorld (cashBook 105 100) [(lockdownInput (-10), Dict.empty)]).highWaterMark ≠
        some 100 := by
  refine ⟨lockdownProfile_top (-10), ⟨rfl, rfl, rfl, rfl⟩, by norm_num, ?_⟩
  decide +kernel

end Core

end SumplusTrader
