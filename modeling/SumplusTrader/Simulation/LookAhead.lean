import SumplusTrader.Data.Bars
import SumplusTrader.Simulation.Journal

/-!
# A replay does not look ahead

This file shows that the ticks a replay makes by some hour depend on the prices until then alone:
the views of an hour are read off the paths at the hour and before it, and everything else of a tick
comes from the tick before. It follows that a longer simulation goes on from a shorter one.
-/

namespace SumplusTrader

namespace Simulation

variable {pstdev : List ℚ → ℚ} {bar h : ℕ} {path path' : List (ℚ × ℚ)} {series series' : Series}

theorem priceAt_congr (same : SamePath bar path path') (within : h ≤ bar) :
    priceAt path h = priceAt path' h := by
  rw [priceAt, priceAt, same.getElem? within]

theorem returnsAt_congr (same : SamePath bar path path') (within : h ≤ bar) :
    returnsAt path h = returnsAt path' h := by
  apply mapM_congr_forall₂
  rw [List.forall₂_same]
  intro i mem
  rw [List.mem_range'_1] at mem
  rw [priceAt_congr same (by omega), priceAt_congr same (by omega)]

theorem viewOf_congr (same : SamePath bar path path') (within : h ≤ bar) (sym : String)
    (nowTs : ℚ) : viewOf pstdev sym path h nowTs = viewOf pstdev sym path' h nowTs := by
  rw [viewOf, viewOf, priceAt_congr same within, returnsAt_congr same within,
    priceAt_congr same (show h - 1 ≤ bar by omega), priceAt_congr same (show h - 4 ≤ bar by omega)]

/-- The tokens with a series are the same, with paths that agree. -/
theorem listed_congr (agree : AgreeUpTo bar series series') (tokens : List String) :
    List.Forall₂ (fun entry entry' => entry.1 = entry'.1 ∧ SamePath bar entry.2 entry'.2)
      (tokens.filterMap fun sym =>
        ((series.get? sym).filter (· ≠ [])).map fun path => (sym, path))
      (tokens.filterMap fun sym =>
        ((series'.get? sym).filter (· ≠ [])).map fun path => (sym, path)) := by
  induction tokens with
  | nil => exact .nil
  | cons sym tokens ih =>
      rw [List.filterMap_cons, List.filterMap_cons]
      have found := agree.get? sym
      generalize series.get? sym = path?, series'.get? sym = path?' at found
      cases found with
      | none => exact ih
      | @some path path' same =>
          by_cases empty : path = []
          · have empty' := same.eq_nil_iff.1 empty
            rw [empty, empty']
            exact ih
          · have nonempty' : path' ≠ [] := fun empty' => empty (same.eq_nil_iff.2 empty')
            simp only [Option.filter_some, empty, nonempty', ne_eq, not_false_eq_true, decide_true,
              if_true, Option.map_some]
            exact .cons ⟨rfl, same⟩ ih

theorem viewsAt_congr (agree : AgreeUpTo bar series series') (within : h ≤ bar) (nowTs : ℚ)
    (cfg : Config) : viewsAt pstdev series h nowTs cfg = viewsAt pstdev series' h nowTs cfg := by
  refine congrArg (· >>= _) (mapM_congr_forall₂ ?_)
  apply List.Forall₂.imp _ (listed_congr agree cfg.universeTokens)
  rintro ⟨sym, path⟩ ⟨sym', path'⟩ ⟨key, same⟩
  dsimp only at key same ⊢
  rw [key, viewOf_congr same within]

/-- A replay of other prices. -/
def Replay.withSeries (replay : Replay) (series : Series) : Replay :=
  { replay with series := series }

variable {replay : Replay} {config : Config} {world : World} {previous : Option (List TokenView)}
  {state : State} {tally : Tally} {early : List ℕ}

/-- The ticks of the hours up to a bar are the first ticks of any replay that goes on from there, on
prices that agree up to it. -/
theorem replayHours_append (agree : AgreeUpTo bar series series')
    (within : ∀ hour ∈ early, hour ≤ bar) (later : List ℕ) :
    (replayHours pstdev (replay.withSeries series) config world previous state tally early).1 =
      (replayHours pstdev (replay.withSeries series') config world previous state tally
        (early ++ later)).1.take early.length := by
  induction early generalizing world previous state tally with
  | nil =>
      rw [replayHours]
      rfl
  | cons h early ih =>
      rw [List.forall_mem_cons] at within
      have viewed : viewsAt pstdev (replay.withSeries series).series h
          (timeAt (replay.withSeries series) h) config =
            viewsAt pstdev (replay.withSeries series').series h
              (timeAt (replay.withSeries series') h) config := viewsAt_congr agree within.1 _ _
      rw [List.cons_append, replayHours, replayHours, viewed]
      rcases viewsAt pstdev (replay.withSeries series').series h
        (timeAt (replay.withSeries series') h) config with e | views
      · rfl
      · have shown : inputAt (replay.withSeries series) h views =
            inputAt (replay.withSeries series') h views := rfl
        dsimp only
        rw [shown]
        rcases Core.tick world state (inputAt (replay.withSeries series') h views) with
          ⟨fx, e | ⟨result, newState⟩⟩
        · simp
        · have gated : (replay.withSeries series).gatePct = (replay.withSeries series').gatePct :=
            rfl
          dsimp only
          rw [gated]
          rcases (replay.withSeries series').gatePct with e | gate
          · simp
          · dsimp only
            rw [List.length_cons, List.take_succ_cons, ih within.2]

theorem startReplay_append (agree : AgreeUpTo bar series series') (replay : Replay)
    (world : World) (within : ∀ hour ∈ early, hour ≤ bar) (later : List ℕ) (nav0 : ℚ) :
    (startReplay pstdev (replay.withSeries series) world nav0 early).1 =
      (startReplay pstdev (replay.withSeries series') world nav0 (early ++ later)).1.take
        early.length := by
  have sameCfg : (replay.withSeries series).cfg = (replay.withSeries series').cfg := rfl
  unfold startReplay
  rw [sameCfg]
  rcases Core.readConfig (replay.withSeries series').cfg with e | config
  · rw [List.take_nil]
  · exact replayHours_append agree within later

theorem hoursOf_append {hours longer : ℕ} (le : hours ≤ longer) (step : ℕ) :
    ∃ later, hoursOf longer step = hoursOf hours step ++ later := by
  have fewer : (hours - 4 + step - 1) / step ≤ (longer - 4 + step - 1) / step :=
    Nat.div_le_div_right (by omega)
  rcases Nat.exists_eq_add_of_le fewer with ⟨more, count⟩
  rw [hoursOf, hoursOf, count, List.range_add, List.map_append]
  exact ⟨_, rfl⟩

theorem lt_of_mem_hoursOf {hours step hour : ℕ} (positive : 0 < step)
    (mem : hour ∈ hoursOf hours step) : hour < hours := by
  rcases List.mem_map.1 mem with ⟨i, visited, rfl⟩
  rw [List.mem_range] at visited
  have below := (Nat.le_div_iff_mul_le positive).1 visited
  rw [Nat.succ_mul] at below
  omega

/-- **A simulation does not look ahead.** On prices that agree up to a bar, the ticks of a
simulation that ends by then are the first ticks of every longer one; so are those of a week of real
prices that is cut short. -/
theorem simulate_no_lookahead (pstdev : List ℚ → ℚ) (world : World) (wall : ℕ → ℚ) (bar : ℕ)
    (series series' : Series) (agree : AgreeUpTo bar series series') :
    (∀ (args : SimulateArgs) (weeks : ℚ), args.weeks ≤ weeks →
      ⌊args.weeks * 7 * 24⌋₊ ≤ bar + 1 →
        (simulate pstdev args world series wall).1 =
          (simulate pstdev { args with weeks := weeks } world series' wall).1.take
            (hoursOf ⌊args.weeks * 7 * 24⌋₊ args.stepHours).length) ∧
      ∀ (lo mid hi : ℕ) (cfg : Json) (baseTs : ℚ), mid ≤ hi → mid ≤ bar + 1 →
        (runWeekLive pstdev series lo mid cfg baseTs world wall).1 =
          (runWeekLive pstdev series' lo hi cfg baseTs world wall).1.take (mid - lo) := by
  constructor
  · intro args weeks longer ends
    unfold simulate
    rcases loadConfig world.configFile with e | cfg
    · rw [List.take_nil]
    dsimp only
    split
    · rw [List.take_nil]
    · next step =>
      have more : ⌊args.weeks * 7 * 24⌋₊ ≤ ⌊weeks * 7 * 24⌋₊ := Nat.floor_mono (by linarith)
      rcases hoursOf_append more args.stepHours with ⟨later, hours⟩
      rw [hours]
      have within : ∀ hour ∈ hoursOf ⌊args.weeks * 7 * 24⌋₊ args.stepHours, hour ≤ bar := by
        intro hour mem
        have before := lt_of_mem_hoursOf (Nat.pos_of_ne_zero step) mem
        omega
      exact startReplay_append agree
        ⟨cfg, series, Core.enforcedNow args.baseTs 1750550400, gateOf cfg, wall⟩ _ within later
          args.nav0
  · intro lo mid hi cfg baseTs longer ends
    have hours : List.range' lo (hi - lo) =
        List.range' lo (mid - lo) ++ List.range' (lo + (mid - lo)) (hi - lo - (mid - lo)) := by
      rw [List.range'_append_1]
      congr 1
      omega
    have within : ∀ hour ∈ List.range' lo (mid - lo), hour ≤ bar := by
      intro hour mem
      rw [List.mem_range'_1] at mem
      omega
    have ticks := @startReplay_append pstdev _ _ _ _ agree ⟨cfg, series, baseTs, .ok 6, wall⟩
      (resetLogs world) within (List.range' (lo + (mid - lo)) (hi - lo - (mid - lo))) 500
    rw [← hours, List.length_range'] at ticks
    exact ticks

/-- The doubling prices without their last hour. -/
def doublingStart : Series :=
  Dict.empty.set "INJ" ((List.range 5).map fun h : ℕ => ((h : ℚ), ((2 ^ h : ℕ) : ℚ)))

theorem simulate_no_lookahead_doubling :
    (runWeekLive (fun _ => 0) doublingStart 4 5 (Core.hourlyProfile 1) 0 Core.bareWorld
        fun _ => 0).1 =
      (runWeekLive (fun _ => 0) doublingSeries 4 6 (Core.hourlyProfile 1) 0 Core.bareWorld
        fun _ => 0).1.take 1 := by
  have agree : AgreeUpTo 4 doublingStart doublingSeries := .cons ⟨rfl, rfl⟩ .nil
  exact (simulate_no_lookahead (fun _ => 0) Core.bareWorld (fun _ => 0) 4 _ _ agree).2 4 5 6 _ 0
    (by decide) (by decide)

example : (runWeekLive (fun _ => 0) doublingStart 4 5 (Core.hourlyProfile 1) 0 Core.bareWorld
    fun _ => 0).1.length = 1 := by decide +kernel

end Simulation

end SumplusTrader
