import SumplusTrader.Core.SimulatedTick
import SumplusTrader.Core.TradeRate
import SumplusTrader.Simulation.Replay

/-!
# What a replay shows to the policy

The live loop marks the net asset value before it calls `tick`, so the strategy and the
policy engine see the drawdown and the exposure at the prices of that tick. The drivers
that replay prices mark it after the tick, so a tick sees the value at the prices of the
tick before.

`replay_shows_marked_iff` says at which ticks this makes no difference. The invariant is
that every tick of a replay starts from a state that was marked at the prices before it, or
from the initial cash (`MarkedBefore`).
-/

namespace SumplusTrader

namespace Simulation

/-- The strategy and the policy engine see the drawdown and the exposure of the book as it
is marked at the prices of this tick. -/
def ShowsMarked (t : ReplayTick) : Prop :=
  let shown := buildPortfolioState t.state t.views t.input.stateClock
  let marked := buildPortfolioState (markNav t.state (priceMap t.views)).2 t.views
    t.input.stateClock
  shown.drawdownPct = marked.drawdownPct ∧ shown.riskyExposurePct = marked.riskyExposurePct

/-- The book is worth the same at the prices of this tick as at those of the tick before. -/
def SameWorth (t : ReplayTick) : Prop :=
  ∀ old ∈ t.previous, markedUsd t.state (priceMap old) = markedUsd t.state (priceMap t.views)

/-- The value has moved where neither figure shows it: the positions count for nothing, or
there is no positive value; and the high-water mark is not positive, or it is reached and
the value rises above it. -/
def Hidden (t : ReplayTick) : Prop :=
  let nav := t.state.navOrDefault
  let marked := (markNav t.state (priceMap t.views)).1
  (riskyUsd t.state (priceMap t.views) = 0 ∨ nav ≤ 0 ∧ marked ≤ 0) ∧
    (t.state.highWater ≤ 0 ∨ nav = t.state.highWater ∧ t.state.highWater < marked)

theorem drawdownPct_of_nonpos {hwm : ℚ} (low : hwm ≤ 0) (nav : ℚ) : drawdownPct nav hwm = 0 :=
  if_neg (not_lt.2 low)

theorem drawdownPct_of_le {nav hwm : ℚ} (positive : 0 < hwm) (below : nav ≤ hwm) :
    drawdownPct nav hwm = (hwm - nav) / hwm * 100 := by
  have nonneg : 0 ≤ hwm - nav := sub_nonneg.2 below
  rw [drawdownPct, if_pos positive]
  apply max_eq_right
  positivity

/-- There is no drawdown at the mark itself. -/
theorem drawdownPct_self (nav : ℚ) : drawdownPct nav nav = 0 := by
  rcases le_or_gt nav 0 with low | positive
  · exact drawdownPct_of_nonpos low nav
  · rw [drawdownPct_of_le positive le_rfl, sub_self, zero_div, zero_mul]

theorem drawdownPct_raised_of_nonpos {hwm : ℚ} (low : hwm ≤ 0) (marked : ℚ) :
    drawdownPct marked (max hwm marked) = 0 := by
  rcases le_or_gt marked 0 with low' | positive
  · exact drawdownPct_of_nonpos (max_le low low') marked
  · rw [max_eq_right (low.trans positive.le)]
    exact drawdownPct_self marked

theorem drawdownPct_eq_zero_iff {nav hwm : ℚ} (positive : 0 < hwm) (below : nav ≤ hwm) :
    drawdownPct nav hwm = 0 ↔ nav = hwm := by
  rw [drawdownPct_of_le positive below]
  constructor
  · intro none
    field_simp at none
    linarith
  · rintro rfl
    rw [sub_self, zero_div, zero_mul]

theorem drawdownPct_inj {nav marked hwm : ℚ} (positive : 0 < hwm) (below : nav ≤ hwm)
    (below' : marked ≤ hwm) : drawdownPct nav hwm = drawdownPct marked hwm ↔ nav = marked := by
  rw [drawdownPct_of_le positive below, drawdownPct_of_le positive below']
  constructor
  · intro same
    field_simp at same
    linarith
  · rintro rfl
    rfl

theorem drawdownPct_eq_iff {nav hwm : ℚ} (below : nav ≤ hwm) (marked : ℚ) :
    drawdownPct nav hwm = drawdownPct marked (max hwm marked) ↔
      nav = marked ∨ hwm ≤ 0 ∨ nav = hwm ∧ hwm < marked := by
  rcases le_or_gt hwm 0 with low | positive
  · rw [drawdownPct_of_nonpos low, drawdownPct_raised_of_nonpos low]
    exact iff_of_true rfl (.inr (.inl low))
  · have high : ¬hwm ≤ 0 := not_le.2 positive
    rcases le_or_gt marked hwm with small | risen
    · rw [max_eq_left small, drawdownPct_inj positive below small]
      simp [high, not_lt.2 small]
    · have apart : nav ≠ marked := (below.trans_lt risen).ne
      rw [max_eq_right risen.le, drawdownPct_self, drawdownPct_eq_zero_iff positive below]
      simp [high, risen, apart]

/-- The risky share of a net asset value. -/
def exposureShare (risky nav : ℚ) : ℚ := if 0 < nav then risky / nav else 0

theorem exposureShare_eq_iff (risky nav marked : ℚ) :
    exposureShare risky nav = exposureShare risky marked ↔
      nav = marked ∨ risky = 0 ∨ nav ≤ 0 ∧ marked ≤ 0 := by
  unfold exposureShare
  rcases le_or_gt nav 0 with low | positive
  · rcases le_or_gt marked 0 with low' | positive'
    · simp [not_lt.2 low, not_lt.2 low', low, low']
    · have apart : nav ≠ marked := by linarith
      simp [not_lt.2 low, positive', not_le.2 positive', apart, positive'.ne', eq_comm]
  · rcases le_or_gt marked 0 with low' | positive'
    · have apart : nav ≠ marked := by
        intro same
        linarith
      simp [positive, not_lt.2 low', not_le.2 positive, apart, positive.ne']
    · simp only [positive, positive', if_true, not_le.2 positive, false_and, or_false]
      rw [div_eq_div_iff positive.ne' positive'.ne']
      constructor
      · intro same
        rcases eq_or_ne risky 0 with none | some
        · exact .inr none
        · exact .inl (mul_left_cancel₀ some same).symm
      · rintro (rfl | rfl)
        · rfl
        · simp

/-- The state was marked at the prices of the tick before, or it is the initial cash. -/
structure MarkedBefore (previous : Option (List TokenView)) (state : State) : Prop where
  cash : ∃ stable, state.stableUsd = some stable
  highWater : ∃ hwm, state.highWaterMark = some hwm
  below : state.navOrDefault ≤ state.highWater
  worth : state.navOrDefault = state.stable +
    (previous.map fun old => markedUsd state (priceMap old)).getD 0
  initial : previous = none → state.positions = Dict.empty

theorem markedBefore_initialState (nav : ℚ) : MarkedBefore none (initialState nav) where
  cash := ⟨nav, rfl⟩
  highWater := ⟨nav, rfl⟩
  below := le_refl nav
  worth := (add_zero nav).symm
  initial := fun _ => rfl

theorem markedBefore_markNav {state : State} (cash : ∃ stable, state.stableUsd = some stable)
    (views : List TokenView) : MarkedBefore (some views) (markNav state (priceMap views)).2 := by
  rcases cash with ⟨stable, cash⟩
  refine ⟨⟨stable, cash⟩, ⟨_, rfl⟩, le_max_right _ _, ?_, by simp⟩
  simp [markNav, State.stable, State.navOrDefault, cash, markedUsd]

/-- A tick keeps the cash of a state that has some. -/
theorem cash_of_tick {world : World} {state newState : State} {input : TickInput}
    {fx : Effects} {result : TickResult} (cash : ∃ stable, state.stableUsd = some stable)
    (ticked : Core.tick world state input = (fx, .ok (result, newState))) :
    ∃ stable, newState.stableUsd = some stable := by
  rcases Core.tick_state ticked with ⟨ph, j, seq, -, -, rfl, -⟩
  cases result.executed with
  | false => exact cash
  | true => exact cash_applyFill _ _ _ _ _

section Run

variable {pstdev : List ℚ → ℚ} {replay : Replay} {config : Config}

/-- Every tick of a replay starts from a state that was marked before. -/
theorem markedBefore_of_mem {world : World} {previous : Option (List TokenView)} {state : State}
    {tally : Tally} {hours : List ℕ} (marked : MarkedBefore previous state) :
    ∀ t ∈ (replayHours pstdev replay config world previous state tally hours).1,
      MarkedBefore t.previous t.state := by
  induction hours generalizing world previous state tally with
  | nil => simp [replayHours]
  | cons h hours ih =>
      intro t mem
      rw [replayHours] at mem
      rcases viewed : viewsAt pstdev replay.series h (timeAt replay h) config with e | views
      · simp [viewed] at mem
      · simp only [viewed] at mem
        rcases ticked : Core.tick world state (inputAt replay h views) with
          ⟨fx, e | ⟨result, newState⟩⟩
        · simp only [ticked, List.mem_singleton] at mem
          exact mem ▸ marked
        · simp only [ticked] at mem
          rcases gate : replay.gatePct with e | gate
          · simp only [gate, List.mem_singleton] at mem
            exact mem ▸ marked
          · simp only [gate, List.mem_cons] at mem
            rcases mem with rfl | later
            · exact marked
            · exact ih (markedBefore_markNav (cash_of_tick marked.cash ticked) views) t later

theorem markedBefore_startReplay {world : World} {nav : ℚ} {hours : List ℕ} :
    ∀ t ∈ (startReplay pstdev replay world nav hours).1, MarkedBefore t.previous t.state := by
  unfold startReplay
  rcases Core.readConfig replay.cfg with e | config
  · simp
  · exact markedBefore_of_mem (markedBefore_initialState nav)

end Run

theorem markNav_fst_eq (state : State) (price : Dict String ℚ) :
    (markNav state price).1 = state.stable + markedUsd state price := rfl

/-- A value that is marked anew moves exactly when the positions change their worth. -/
theorem MarkedBefore.sameWorth_iff {t : ReplayTick} (marked : MarkedBefore t.previous t.state) :
    t.state.navOrDefault = (markNav t.state (priceMap t.views)).1 ↔ SameWorth t := by
  rw [marked.worth, markNav_fst_eq, add_right_inj, SameWorth]
  cases previous : t.previous with
  | none => simp [markedUsd, marked.initial previous, Dict.total, Dict.empty]
  | some old => simp

theorem shown_drawdownPct (state : State) (views : List TokenView) (wall : ℚ) :
    (buildPortfolioState state views wall).drawdownPct =
      drawdownPct state.navOrDefault state.highWater := rfl

theorem shown_riskyExposurePct (state : State) (views : List TokenView) (wall : ℚ) :
    (buildPortfolioState state views wall).riskyExposurePct =
      exposureShare (riskyUsd state (priceMap views)) state.navOrDefault := rfl

theorem navOrDefault_markNav (state : State) (price : Dict String ℚ) :
    (markNav state price).2.navOrDefault = (markNav state price).1 := rfl

theorem riskyUsd_markNav (state : State) (price other : Dict String ℚ) :
    riskyUsd (markNav state price).2 other = riskyUsd state other := rfl

theorem highWater_markNav {state : State} {hwm : ℚ} (found : state.highWaterMark = some hwm)
    (price : Dict String ℚ) :
    (markNav state price).2.highWater = max state.highWater (markNav state price).1 := by
  simp [markNav, State.highWater, found]

theorem MarkedBefore.showsMarked_iff {t : ReplayTick} (marked : MarkedBefore t.previous t.state) :
    ShowsMarked t ↔ SameWorth t ∨ Hidden t := by
  rcases marked.highWater with ⟨hwm, found⟩
  have drawdowns := drawdownPct_eq_iff marked.below (markNav t.state (priceMap t.views)).1
  simp only [ShowsMarked, shown_drawdownPct, shown_riskyExposurePct, navOrDefault_markNav,
    riskyUsd_markNav, highWater_markNav found, drawdowns, exposureShare_eq_iff, Hidden,
    ← marked.sameWorth_iff]
  rw [← or_and_left]
  exact or_congr_right and_comm

/-- **A replay shows the policy the drawdown and the exposure of the live loop** at exactly
the ticks at which the book is worth what it was worth at the prices of the tick before, or
at which neither figure shows the change. -/
theorem replay_shows_marked_iff (pstdev : List ℚ → ℚ) (world : World) (series : Series)
    (wall : ℕ → ℚ) :
    (∀ args, ∀ t ∈ (simulate pstdev args world series wall).1,
        (ShowsMarked t ↔ SameWorth t ∨ Hidden t)) ∧
      ∀ lo hi cfg baseTs, ∀ t ∈ (runWeekLive pstdev series lo hi cfg baseTs world wall).1,
        (ShowsMarked t ↔ SameWorth t ∨ Hidden t) := by
  constructor
  · intro args t mem
    unfold simulate at mem
    split at mem
    · simp at mem
    · split at mem
      · simp at mem
      · exact (markedBefore_startReplay t mem).showsMarked_iff
  · intro lo hi cfg baseTs t mem
    exact (markedBefore_startReplay t mem).showsMarked_iff

/-- The books that a replay shows to its ticks, with the views of the ticks. -/
def shownBooks (pstdev : List ℚ → ℚ) (replay : Replay) (config : Config)
    (configFile : Option String) (state : State) : List ℕ → List (State × List TokenView)
  | [] => []
  | h :: hours =>
      match viewsAt pstdev replay.series h (timeAt replay h) config with
      | .error _ => []
      | .ok views =>
          (state, views) ::
            match Core.prepare configFile state (inputAt replay h views) with
            | .error _ => []
            | .ok (_, j) =>
                match replay.gatePct with
                | .error _ => []
                | .ok _ =>
                    shownBooks pstdev replay config configFile
                      (markNav (Core.simulated state j).2 (priceMap views)).2 hours

theorem map_replayHours {pstdev : List ℚ → ℚ} {replay : Replay} {config : Config} {world : World}
    (appendable : Core.Appendable world) {previous : Option (List TokenView)} {state : State}
    {tally : Tally} {hours : List ℕ} :
    (replayHours pstdev replay config world previous state tally hours).1.map
        (fun t => (t.state, t.views)) =
      shownBooks pstdev replay config world.configFile state hours := by
  induction hours generalizing world previous state tally with
  | nil => rfl
  | cons h hours ih =>
      rw [replayHours, shownBooks]
      rcases viewed : viewsAt pstdev replay.series h (timeAt replay h) config with e | views
      · rfl
      · have noExecutor : (inputAt replay h views).executor = none := rfl
        have kept := Core.tick_of_no_executor noExecutor appendable state
        have configFile := Core.configFile_tick world state (inputAt replay h views)
        rcases prepared : Core.prepare world.configFile state (inputAt replay h views) with
          e | ⟨ph, j⟩
        · rcases ticked : Core.tick world state (inputAt replay h views) with ⟨fx, e' | ended⟩
          · simp [ticked, prepared]
          · simp [ticked, prepared, Except.map] at kept
        · rcases ticked : Core.tick world state (inputAt replay h views) with
            ⟨fx, e' | ⟨result, newState⟩⟩
          · simp [ticked, prepared, Except.map] at kept
          · rw [ticked, prepared] at kept
            have configFile' : fx.world.configFile = world.configFile := by
              rwa [ticked] at configFile
            rcases kept with ⟨appendable', ended⟩
            have ended' : (result.executed, newState) = Core.simulated state j :=
              Except.ok.inj ended
            rcases gate : replay.gatePct with e | gate
            · simp [ticked, prepared]
            · simp only [ticked, prepared, List.map_cons, ih appendable', configFile', ← ended']

/-- The price of INJ doubles every hour. -/
def doublingSeries : Series :=
  Dict.empty.set "INJ" ((List.range 6).map fun h : ℕ => ((h : ℚ), ((2 ^ h : ℕ) : ℚ)))

def doublingReplay : Replay := ⟨Core.hourlyProfile 1, doublingSeries, 0, .ok 6, fun _ => 0⟩

/-- The replay enters a position at its first hour, and the price doubles before its second:
the second tick sees the exposure of the entry. -/
theorem replay_lags_prices :
    ∃ t ∈ (runWeekLive (fun _ => 0) doublingSeries 4 6 (Core.hourlyProfile 1) 0 Core.bareWorld
      fun _ => 0).1, ¬ShowsMarked t := by
  have read : (Config.ofJson (Core.hourlyProfile 1)).isSome := rfl
  rcases Option.isSome_iff_exists.1 read with ⟨config, found⟩
  have books : (Config.ofJson (Core.hourlyProfile 1)).map (fun config =>
      (shownBooks (fun _ => 0) doublingReplay config (resetLogs Core.bareWorld).configFile
        (initialState 500) [4, 5]).map fun book =>
          (riskyUsd book.1 (priceMap book.2), book.1.navOrDefault,
            (markNav book.1 (priceMap book.2)).1)) = some [(0, 500, 500), (100, 500, 550)] := by
    decide +kernel
  have made : (runWeekLive (fun _ => 0) doublingSeries 4 6 (Core.hourlyProfile 1) 0 Core.bareWorld
      fun _ => 0).1 = (replayHours (fun _ => 0) doublingReplay config
        (resetLogs Core.bareWorld) none (initialState 500) ⟨0, none⟩ [4, 5]).1 := by
    simp only [runWeekLive, startReplay, Core.readConfig, found]
    rfl
  rw [found, Option.map_some, Option.some.injEq,
    ← map_replayHours (Core.appendable_of_empty rfl), List.map_map] at books
  have second : ((100 : ℚ), (500 : ℚ), (550 : ℚ)) ∈
      [((0 : ℚ), (500 : ℚ), (500 : ℚ)), (100, 500, 550)] := by
    simp
  rw [← books, List.mem_map] at second
  rcases second with ⟨t, mem, figures⟩
  simp only [Function.comp_apply, Prod.mk.injEq] at figures
  rcases figures with ⟨risky, nav, marked⟩
  refine ⟨t, made ▸ mem, ?_⟩
  rintro ⟨-, exposures⟩
  rw [shown_riskyExposurePct, shown_riskyExposurePct, riskyUsd_markNav, navOrDefault_markNav,
    risky, nav, marked, exposureShare_eq_iff] at exposures
  norm_num at exposures

end Simulation

end SumplusTrader
