import SumplusTrader.Core.HighWater
import SumplusTrader.Simulation.Journal

/-!
# The report of a replay

This file reads the summary of a replay off the curve of its marked net asset values. The
replays carry the high-water mark in the state of the agent and the largest drop in a tally of
their own; the metrics of the backtest go through the whole curve again. `Tallied` keeps the two
together from hour to hour, and `simulate_report` says that they agree at the end.
-/

namespace SumplusTrader

namespace Simulation

/-- The state and the tally of a replay stand where the metrics stand after a curve. -/
structure Tallied (curve : List ℚ) (gate : ℚ) (state : State) (tally : Tally) : Prop where
  peak : ∃ hwm, state.highWaterMark = some hwm
  folded : curve.foldl Backtest.drawdownStep (none, 0) = (some state.highWater, tally.maxDd)
  nonneg : 0 ≤ tally.maxDd
  breached : 0 < gate → (tally.breachHour.isSome = true ↔ gate ≤ tally.maxDd)
  last : curve.getLast? = some state.navOrDefault

variable {pstdev : List ℚ → ℚ} {replay : Replay} {config : Config} {world : World}
  {previous views : Option (List TokenView)} {state last newState : State} {tally ended : Tally}
  {hours : List ℕ} {ticks : List ReplayTick} {curve : List ℚ} {gate : ℚ}

theorem tallied_initialState (nav gate : ℚ) : Tallied [nav] gate (initialState nav) ⟨0, none⟩ where
  peak := ⟨nav, rfl⟩
  folded := by
    have drop : Backtest.dropPct nav nav = 0 := by simp [Backtest.dropPct]
    simp [Backtest.drawdownStep, Backtest.raisePeak, drop, State.highWater, initialState]
  nonneg := le_refl 0
  breached := by
    intro positive
    simp only [Option.isSome_none, Bool.false_eq_true, false_iff, not_le]
    exact positive
  last := rfl

/-- One marked value more on the curve. -/
theorem Tallied.mark (tallied : Tallied curve gate state tally)
    (kept : newState.highWaterMark = state.highWaterMark) (price : Dict String ℚ) (h : ℕ) :
    Tallied (curve ++ [(markNav newState price).1]) gate (markNav newState price).2
      (tallyHour tally gate h (markNav newState price).1 (markNav newState price).2.highWater) := by
  rcases tallied.peak with ⟨hwm, found⟩
  have before : state.highWater = hwm := by rw [State.highWater, found, Option.getD_some]
  have raised : (markNav newState price).2.highWater = max hwm (markNav newState price).1 := by
    rw [highWater_markNav (kept.trans found), State.highWater, kept, found, Option.getD_some]
  have same : Backtest.raisePeak (some hwm) (markNav newState price).1 =
      max hwm (markNav newState price).1 := by
    rw [Backtest.raisePeak]
    split
    · next higher => exact (max_eq_right higher.le).symm
    · next lower => exact (max_eq_left (not_lt.1 lower)).symm
  refine ⟨⟨_, rfl⟩, ?_, le_max_of_le_left tallied.nonneg, ?_, ?_⟩
  · rw [List.foldl_append, tallied.folded, before, List.foldl_cons, List.foldl_nil,
      Backtest.drawdownStep, same, raised, tallyHour]
    simp only [Prod.mk.injEq, true_and]
    split
    · split
      · next deeper => exact (max_eq_right deeper.le).symm
      · next shallower => exact (max_eq_left (not_lt.1 shallower)).symm
    · exact (max_eq_left tallied.nonneg).symm
  · intro positive
    simp only [tallyHour, Option.isSome_or, Bool.or_eq_true, tallied.breached positive, le_max_iff]
    split <;> simp_all
  · rw [List.getLast?_append, List.getLast?_singleton]
    rfl

/-- A replay that goes on extends the curve by one value for each tick. -/
theorem replayHours_tallied (tallied : Tallied curve gate state tally)
    (gated : replay.gatePct = .ok gate)
    (ran : replayHours pstdev replay config world previous state tally hours =
      (ticks, .ok (views, last, ended))) :
    ∃ navs, Tallied (curve ++ navs) gate last ended ∧ ticks.length = hours.length ∧
      navs.length = ticks.length ∧
      (∀ (i : ℕ) t, ticks[i]? = some t → (curve ++ navs)[curve.length - 1 + i]? =
        some t.state.navOrDefault) ∧
      last.tradesThisWeek = state.tradesThisWeek + ticks.countP ReplayTick.executed := by
  induction hours generalizing world previous state tally curve ticks with
  | nil =>
      simp only [replayHours, Prod.mk.injEq, Except.ok.injEq] at ran
      rcases ran with ⟨rfl, rfl, rfl, rfl⟩
      exact ⟨[], by simpa using tallied, rfl, rfl, by simp, by simp⟩
  | cons h hours ih =>
      rcases replayHours_cons ran with
        ⟨seen, fx, result, newState, gate', rest, gated', ticked, rfl, on⟩
      rw [gated, Except.ok.injEq] at gated'
      subst gated'
      have counts := (tick_posts rfl ticked).2
      have next := tallied.mark (Core.highWaterMark_of_tick ticked) (priceMap seen) h
      rcases ih next on with ⟨navs, talliedAll, visited, length, shown, trades⟩
      have nonempty : 0 < curve.length := by
        rw [List.length_pos_iff]
        intro empty
        have last := tallied.last
        simp [empty] at last
      have made : ReplayTick.executed ⟨world, previous, state, seen, inputAt replay h seen⟩ =
          result.executed := by
        simp only [ReplayTick.executed, ticked]
      refine ⟨(markNav newState (priceMap seen)).1 :: navs, ?_, by simp [visited],
        by simp [length], ?_, ?_⟩
      · rw [List.append_cons]
        exact talliedAll
      · intro i t found
        cases i with
        | zero =>
            rw [List.getElem?_cons_zero, Option.some.injEq] at found
            rw [← found, add_zero, List.getElem?_append_left (by omega),
              ← List.getLast?_eq_getElem?]
            exact tallied.last
        | succ i =>
            rw [List.getElem?_cons_succ] at found
            have later := shown i t found
            rw [List.length_append, List.length_singleton] at later
            rw [List.append_cons, ← later]
            congr 1
            omega
      · change last.tradesThisWeek = newState.tradesThisWeek + _ at trades
        rw [trades, counts, List.countP_cons, made]
        cases result.executed <;> push_cast <;> ring

/-- The curve of a replay: the initial cash and one marked value for each tick. -/
structure CurveOf (nav0 : ℚ) (ticks : List ReplayTick) (last : State) (navs : List ℚ) : Prop where
  length : navs.length = ticks.length
  shown : ∀ (i : ℕ) t, ticks[i]? = some t → (nav0 :: navs)[i]? = some t.state.navOrDefault
  last : (nav0 :: navs).getLast? = some last.navOrDefault

theorem startReplay_tallied {nav0 : ℚ} (gated : replay.gatePct = .ok gate)
    (ran : startReplay pstdev replay world nav0 hours = (ticks, .ok (views, last, ended))) :
    ticks.length = hours.length ∧ last.tradesThisWeek = ticks.countP ReplayTick.executed ∧
      ∃ navs, CurveOf nav0 ticks last navs ∧ ended.maxDd = Backtest.maxDrawdownPct (nav0 :: navs) ∧
        (0 < gate → (ended.breachHour.isSome = true ↔
          gate ≤ Backtest.maxDrawdownPct (nav0 :: navs))) := by
  unfold startReplay at ran
  rcases read : Core.readConfig replay.cfg with e | config
  · simp [read] at ran
  · simp only [read] at ran
    rcases replayHours_tallied (tallied_initialState nav0 gate) gated ran with
      ⟨navs, tallied, visited, length, shown, trades⟩
    have most : ended.maxDd = Backtest.maxDrawdownPct (nav0 :: navs) := by
      rw [Backtest.maxDrawdownPct, ← List.singleton_append, tallied.folded]
    refine ⟨visited, by rw [trades]; simp [initialState], navs, ⟨length, ?_, tallied.last⟩, most, ?_⟩
    · intro i t found
      have value := shown i t found
      rwa [List.length_singleton, Nat.sub_self, zero_add] at value
    · rw [← most]
      exact tallied.breached

/-- **The report of the simulator is that of its curve.** The ticks are the hours and the trades
the executed ticks; the final value and the return are those of the last value on the curve of
marked values, the drawdown is the largest that the metrics of the backtest find in it, and a
positive gate is reported as breached exactly when this drawdown reaches it. -/
theorem simulate_report (pstdev : List ℚ → ℚ) (args : SimulateArgs) (world : World)
    (series : Series) (wall : ℕ → ℚ) {summary : SimulateSummary}
    (ran : simulate pstdev args world series wall = (ticks, .ok summary)) :
    ∃ navs last, CurveOf args.nav0 ticks last navs ∧
      ticks.length = (hoursOf ⌊args.weeks * 7 * 24⌋₊ args.stepHours).length ∧
      summary.ticks = ticks.length ∧ summary.trades = ticks.countP ReplayTick.executed ∧
      summary.finalNav = Py.roundTo 2 last.navOrDefault ∧
      summary.returnPct = Py.roundTo 2 ((last.navOrDefault / args.nav0 - 1) * 100) ∧
      summary.maxDrawdownPct = Py.roundTo 2 (Backtest.maxDrawdownPct (args.nav0 :: navs)) ∧
      (0 < summary.gatePct → (summary.breachedGate = true ↔
        summary.gatePct ≤ Backtest.maxDrawdownPct (args.nav0 :: navs))) := by
  unfold simulate at ran
  rcases loaded : loadConfig world.configFile with e | cfg
  · simp [loaded] at ran
  · simp only [loaded] at ran
    by_cases step : args.stepHours = 0
    · simp [step] at ran
    · simp only [step, if_false, Prod.mk.injEq] at ran
      rcases ran with ⟨made, reported⟩
      rcases bind_eq_ok_iff.1 reported with ⟨⟨views, last, ended⟩, done, reported⟩
      rcases bind_eq_ok_iff.1 reported with ⟨gate, gated, reported⟩
      rcases bind_eq_ok_iff.1 reported with ⟨change, changed, reported⟩
      cases reported
      rcases startReplay_tallied (by exact gated) (Prod.ext made done) with
        ⟨visited, trades, navs, curve, most, breached⟩
      have return_ : change = last.navOrDefault / args.nav0 - 1 := by
        unfold changeFrom at changed
        split at changed
        · cases changed
        · cases changed
          rfl
      refine ⟨navs, last, curve, visited, by rw [made], trades, rfl, ?_, ?_, breached⟩
      · rw [return_]
      · rw [most]

/-- The simulator completes when its replay does. -/
theorem simulate_of_startReplay {args : SimulateArgs} {series : Series} {wall : ℕ → ℚ} {cfg : Json}
    (loaded : loadConfig world.configFile = .ok cfg) (step : args.stepHours ≠ 0)
    (gated : gateOf cfg = .ok gate) (nonzero : args.nav0 ≠ 0)
    (done : startReplay pstdev
        ⟨cfg, series, Core.enforcedNow args.baseTs 1750550400, gateOf cfg, wall⟩
        (if args.reset then resetLogs world else world) args.nav0
        (hoursOf ⌊args.weeks * 7 * 24⌋₊ args.stepHours) = (ticks, .ok (views, last, ended))) :
    ∃ summary, simulate pstdev args world series wall = (ticks, .ok summary) := by
  unfold simulate
  simp only [loaded, if_neg step, done]
  rw [gated]
  simp only [changeFrom, if_neg nonzero]
  exact ⟨_, rfl⟩

/-- The profile that trades at once, with a drawdown gate of six percent. -/
def gatedProfile : Json :=
  let number := fun n : ℤ => Json.num (.int n)
  let pair := fun fromToken toToken => Json.obj [("chain", .str "injective"),
    ("from", .str fromToken), ("to", .str toToken)]
  .obj [("chains", .obj [("injective", .obj [("enabled", .bool true)])]),
    ("universe", .arr [.str "INJ"]), ("quote_tokens", .arr [.str "USDT"]),
    ("allowed_tokens", .arr [.str "USDT", .str "INJ"]),
    ("allowed_pairs", .arr [pair "USDT" "INJ", pair "INJ" "USDT"]),
    ("min_trades", .obj [("target_risky_ratio", number 0), ("rebalance_band", number 0)]),
    ("risk", .obj [("max_single_trade_usd", number 50), ("max_single_trade_pct", number 1),
      ("max_trades_per_hour", number 1), ("min_trade_interval_seconds", number 900),
      ("stop_loss_pct", number 2), ("take_profit_pct", number 4),
      ("max_hold_hours", number 48), ("max_drawdown_pct", number 6)])]

theorem loadConfig_dumps {value : Json} (distinct : value.DistinctKeys) :
    loadConfig (some (Json.dumps .spaced value)) = .ok value := by
  simp only [loadConfig, Json.loads_dumps .spaced distinct]

/-- The file of the profile, and no log. -/
def gatedWorld : World := { Core.bareWorld with configFile := some (Json.dumps .spaced gatedProfile) }

theorem loadConfig_gatedProfile : loadConfig gatedWorld.configFile = .ok gatedProfile := by
  apply loadConfig_dumps
  simp [gatedProfile, Json.DistinctKeys, Json.DistinctKeysFields, Json.DistinctKeysItems]

/-- Six hours of the simulator, at a step of one. -/
def gatedArgs : SimulateArgs := ⟨1 / 28, 1, 500, true, none⟩

def gatedReplay : Replay :=
  ⟨gatedProfile, doublingSeries, 1750550400, gateOf gatedProfile, fun _ => 0⟩

/-- The two hours of the simulation end with the gain of a position bought at sixteen dollars. -/
theorem gatedReplay_lastBook : ∃ config last, Core.readConfig gatedReplay.cfg = .ok config ∧
    lastBook (fun _ => 0) gatedReplay config gatedWorld.configFile (initialState 500) [4, 5] =
      .ok last ∧
    last.navOrDefault = 550 := by
  have read : (Config.ofJson gatedProfile).isSome := rfl
  rcases Option.isSome_iff_exists.1 read with ⟨config, found⟩
  have judged : (Config.ofJson gatedProfile).map (fun config =>
      (lastBook (fun _ => 0) gatedReplay config Core.bareWorld.configFile (initialState 500)
        [4, 5]).toOption.map State.navOrDefault) = some (some 550) := by
    decide +kernel
  have bare : loadConfig Core.bareWorld.configFile = .ok (.obj []) := rfl
  have truthy : gatedReplay.cfg.truthy = true := rfl
  rw [found, Option.map_some, Option.some.injEq,
    lastBook_of_loadConfig truthy bare loadConfig_gatedProfile] at judged
  rcases book : lastBook (fun _ => 0) gatedReplay config gatedWorld.configFile (initialState 500)
    [4, 5] with e | last
  · rw [book] at judged
    cases judged
  · rw [book, Except.toOption, Option.map_some, Option.some.injEq] at judged
    exact ⟨config, last, by simp only [Core.readConfig, gatedReplay, found], book, judged⟩

theorem simulate_report_gated : ∃ ticks summary navs last,
    simulate (fun _ => 0) gatedArgs gatedWorld doublingSeries (fun _ => 0) = (ticks, .ok summary) ∧
      CurveOf 500 ticks last navs ∧ summary.trades = ticks.countP ReplayTick.executed ∧
      summary.maxDrawdownPct = Py.roundTo 2 (Backtest.maxDrawdownPct (500 :: navs)) ∧
      summary.finalNav = Py.roundTo 2 last.navOrDefault := by
  rcases gatedReplay_lastBook with ⟨config, book, read, judged, -⟩
  have appendable : Core.Appendable (resetLogs gatedWorld) := Core.appendable_of_empty rfl
  rcases startReplay_of_lastBook appendable read judged with ⟨ticks, views, ended, done⟩
  have hours : hoursOf ⌊gatedArgs.weeks * 7 * 24⌋₊ gatedArgs.stepHours = [4, 5] := by
    decide +kernel
  rw [← hours] at done
  have nonzero : gatedArgs.nav0 ≠ 0 := by norm_num [gatedArgs]
  have simulated := simulate_of_startReplay loadConfig_gatedProfile one_ne_zero rfl nonzero done
  rcases simulated with ⟨summary, ran⟩
  rcases simulate_report _ _ _ _ _ ran with
    ⟨navs, last, curve, -, -, trades, final, -, drawdown, -⟩
  exact ⟨ticks, summary, navs, last, ran, curve, trades, drawdown, final⟩

end Simulation

end SumplusTrader
