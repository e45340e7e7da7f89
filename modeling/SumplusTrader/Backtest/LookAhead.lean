import SumplusTrader.Backtest.Journal
import SumplusTrader.Data.Bars

/-!
# The backtest does not look ahead

This file shows that what the backtest has done by the end of an hour depends on the prices of the
hours until then, and on nothing that comes later. It holds of every strategy that leaves the book
alone when it is asked, because the strategy is shown the prices of the hour and the history up to
it. The driver of `backtest/real_data.py`, which runs a week of a longer series with the same turns
and keeps no ledger, is covered as well.
-/

namespace SumplusTrader

namespace Backtest

/-- The turns of some hours, from a portfolio of cash. -/
def runFrom (nav : ℚ) (decideFn : DecideFn) (pricesPerAsset : Dict String (List ℚ))
    (hours : List ℕ) : Except PyError (Portfolio × List LedgerLine) :=
  hours.foldlM (runHour decideFn pricesPerAsset) (newPortfolio nav, [])

/-- `_run_week` of `real_data.py`: the hours from `lo` to `hi`, on a fresh portfolio. -/
def runWeek (decideFn : DecideFn) (pricesPerAsset : Dict String (List ℚ)) (lo hi : ℕ) :
    Except PyError Portfolio :=
  (runFrom 500 decideFn pricesPerAsset (List.range' lo (hi - lo))).map Prod.fst

variable {decideFn : DecideFn} {prices prices' : Dict String (List ℚ)} {bar hour : ℕ}
  {hours early later : List ℕ} {state last : Portfolio × List LedgerLine} {nav : ℚ}

theorem marketAt_congr (agree : AgreeUpTo bar prices prices') (within : hour ≤ bar) :
    marketAt prices hour = marketAt prices' hour := by
  have known : prices.entries.map (fun entry => (entry.1, entry.2.take (hour + 1))) =
      prices'.entries.map (fun entry => (entry.1, entry.2.take (hour + 1))) := by
    rw [← List.forall₂_eq_eq_eq, List.forall₂_map_left_iff, List.forall₂_map_right_iff]
    apply List.Forall₂.imp _ agree
    rintro ⟨asset, path⟩ ⟨asset', path'⟩ ⟨key, same⟩
    exact Prod.ext key (same.mono within)
  rw [marketAt, marketAt, known]
  refine congrArg (· >>= _) (mapM_congr_forall₂ ?_)
  apply List.Forall₂.imp _ agree
  rintro ⟨asset, path⟩ ⟨asset', path'⟩ ⟨key, same⟩
  dsimp only at key same ⊢
  rw [key, same.getElem? within]

theorem runHour_congr (agree : AgreeUpTo bar prices prices') (within : hour ≤ bar)
    (state : Portfolio × List LedgerLine) :
    runHour decideFn prices state hour = runHour decideFn prices' state hour := by
  rw [runHour, runHour, marketAt_congr agree within]

/-- The rounds of an hour write lines of the hour. -/
theorem rounds_lines {market : MarketState} {left : ℕ} {p next : Portfolio}
    {ledger ledger' : List LedgerLine}
    (ran : rounds decideFn market hour left p ledger = .ok (next, ledger')) :
    ∃ lines, ledger' = ledger ++ lines ∧ ∀ line ∈ lines, line.hour = hour := by
  induction left generalizing p ledger with
  | zero =>
      cases ran
      exact ⟨[], by simp, by simp⟩
  | succ left ih =>
      rw [rounds] at ran
      rcases bind_eq_ok_iff.1 ran with ⟨⟨asked, intent⟩, -, ran⟩
      dsimp only at ran
      split at ran
      · cases ran
        exact ⟨[], by simp, by simp⟩
      · rcases bind_eq_ok_iff.1 ran with ⟨⟨next, executed⟩, -, ran⟩
        dsimp only at ran
        split at ran
        · rcases ih ran with ⟨lines, rfl, written⟩
          refine ⟨_ :: lines, by rw [List.append_assoc]; rfl, ?_⟩
          rw [List.forall_mem_cons]
          exact ⟨rfl, written⟩
        · cases ran
          exact ⟨[], by simp, by simp⟩

/-- Some hours of a run mark the portfolio once each, and write lines of these hours. -/
structure Continues (hours : List ℕ) (state last : Portfolio × List LedgerLine) : Prop where
  marks : ∃ marks, marks.length = hours.length ∧
    last.1.navHistory = state.1.navHistory ++ marks
  lines : ∃ lines, last.2 = state.2 ++ lines ∧ ∀ line ∈ lines, line.hour ∈ hours

theorem continues_runHour (keeps : KeepsBook decideFn) (sound : Sound state.1)
    (ran : runHour decideFn prices state hour = .ok last) : Continues [hour] state last := by
  rw [runHour] at ran
  rcases bind_eq_ok_iff.1 ran with ⟨market, -, ran⟩
  rcases bind_eq_ok_iff.1 ran with ⟨⟨p, ledger⟩, rounded, ran⟩
  cases ran
  rcases rounds_enters keeps sound rounded with ⟨_, enters⟩
  rcases rounds_lines rounded with ⟨lines, written, ofHour⟩
  refine ⟨⟨[p.nav market.prices], rfl, ?_⟩, lines, written, by simpa using ofHour⟩
  change p.navHistory ++ [p.nav market.prices] = _
  rw [enters.history]

theorem Continues.trans {mid : Portfolio × List LedgerLine} (first : Continues early state mid)
    (second : Continues later mid last) : Continues (early ++ later) state last := by
  rcases first with ⟨⟨marks, count, history⟩, lines, written, ofHours⟩
  rcases second with ⟨⟨marks', count', history'⟩, lines', written', ofHours'⟩
  refine ⟨⟨marks ++ marks', by simp [count, count'], ?_⟩, lines ++ lines', ?_, ?_⟩
  · rw [history', history, List.append_assoc]
  · rw [written', written, List.append_assoc]
  · rw [List.forall_mem_append]
    exact ⟨fun line mem => List.mem_append_left _ (ofHours line mem),
      fun line mem => List.mem_append_right _ (ofHours' line mem)⟩

theorem continues_hours (keeps : KeepsBook decideFn) (sound : Sound state.1)
    (ran : hours.foldlM (runHour decideFn prices) state = .ok last) :
    Continues hours state last := by
  induction hours generalizing state with
  | nil =>
      cases ran
      exact ⟨⟨[], rfl, by simp⟩, [], by simp, by simp⟩
  | cons hour hours ih =>
      rw [List.foldlM_cons] at ran
      rcases bind_eq_ok_iff.1 ran with ⟨next, first, rest⟩
      exact (continues_runHour keeps sound first).trans
        (ih (sound_runHour keeps.sound sound first) rest)

theorem runFrom_append (ran : runFrom nav decideFn prices (early ++ later) = .ok last) :
    ∃ mid, runFrom nav decideFn prices early = .ok mid ∧
      later.foldlM (runHour decideFn prices) mid = .ok last := by
  rw [runFrom, List.foldlM_append] at ran
  exact bind_eq_ok_iff.1 ran

theorem runFrom_congr (agree : AgreeUpTo bar prices prices') (within : ∀ hour ∈ hours, hour ≤ bar) :
    runFrom nav decideFn prices hours = runFrom nav decideFn prices' hours :=
  foldlM_congr (fun hour mem state => runHour_congr agree (within hour mem) state) _

/-- The part of a run up to a bar: its marks come first, and its lines are those up to the bar. -/
theorem reaches_of_runFrom (keeps : KeepsBook decideFn) (positive : 0 < nav)
    (within : ∀ hour ∈ early, hour ≤ bar) (after : ∀ hour ∈ later, bar < hour)
    (ran : runFrom nav decideFn prices (early ++ later) = .ok last) :
    ∃ mid, runFrom nav decideFn prices early = .ok mid ∧
      mid.1.navHistory.length = early.length ∧ mid.1.navHistory <+: last.1.navHistory ∧
      last.2.filter (fun line => line.hour ≤ bar) = mid.2 := by
  rcases runFrom_append ran with ⟨mid, first, rest⟩
  have sound : Sound (newPortfolio nav) := sound_newPortfolio positive
  have soundMid : Sound mid.1 := by
    apply foldlM_invariant (fun state : Portfolio × List LedgerLine => Sound state.1) _ sound first
    intro state hour next sound stepped
    exact sound_runHour keeps.sound sound stepped
  rcases continues_hours keeps sound first with ⟨⟨marks, count, history⟩, lines, written, ofHours⟩
  rcases continues_hours keeps soundMid rest with ⟨⟨more, -, history'⟩, lines', written', ofHours'⟩
  refine ⟨mid, first, ?_, ⟨more, history'.symm⟩, ?_⟩
  · rw [history, ← count]
    rfl
  · have kept : mid.2.filter (fun line => line.hour ≤ bar) = mid.2 := by
      rw [List.filter_eq_self]
      intro line mem
      rw [written, List.nil_append] at mem
      exact decide_eq_true (within _ (ofHours line mem))
    have dropped : lines'.filter (fun line => line.hour ≤ bar) = [] := by
      rw [List.filter_eq_nil_iff]
      intro line mem
      simpa using after _ (ofHours' line mem)
    rw [written', List.filter_append, kept, dropped, List.append_nil]

/-- **The backtest does not look ahead.** Two runs on prices that agree up to a bar have the same
marks for the hours up to it and the same ledger until then, whatever comes later; and the weeks
that end at or before the bar are the same. -/
theorem runStrategy_no_lookahead (decideFn : DecideFn) (keeps : KeepsBook decideFn) (bar : ℕ)
    (prices prices' : Dict String (List ℚ)) (agree : AgreeUpTo bar prices prices')
    (early later later' : List ℕ) (within : ∀ hour ∈ early, hour ≤ bar)
    (after : ∀ hour ∈ later, bar < hour) (after' : ∀ hour ∈ later', bar < hour)
    (last last' : Portfolio) (ledger ledger' : List LedgerLine)
    (ran : runStrategy decideFn prices (early ++ later) = .ok (last, ledger))
    (ran' : runStrategy decideFn prices' (early ++ later') = .ok (last', ledger')) :
    (∃ marks, marks.length = early.length ∧ marks <+: last.navHistory ∧
        marks <+: last'.navHistory) ∧
      ledger.filter (fun line => line.hour ≤ bar) = ledger'.filter (fun line => line.hour ≤ bar) ∧
      ∀ lo hi, hi ≤ bar + 1 → runWeek decideFn prices lo hi = runWeek decideFn prices' lo hi := by
  have positive : 0 < initialNav := by norm_num [initialNav]
  rcases reaches_of_runFrom keeps positive within after ran with
    ⟨mid, first, length, marks, lines⟩
  rcases reaches_of_runFrom keeps positive within after' ran' with
    ⟨mid', first', -, marks', lines'⟩
  rw [← runFrom_congr agree within, first, Except.ok.injEq] at first'
  subst first'
  refine ⟨⟨mid.1.navHistory, length, marks, marks'⟩, lines.trans lines'.symm, ?_⟩
  intro lo hi ends
  have within : ∀ hour ∈ List.range' lo (hi - lo), hour ≤ bar := by
    intro hour mem
    rw [List.mem_range'_1] at mem
    omega
  rw [runWeek, runWeek, runFrom_congr agree within]

/-- The rising prices without their last three hours. -/
def risingStart : Dict String (List ℚ) :=
  Dict.ofList [("ETH", (List.range 3).map fun hour => 2000 * (101 / 100) ^ hour)]

theorem runStrategy_no_lookahead_champion : ∃ last last' ledger ledger' marks,
    runStrategy (fun market p => Champion.decide Champion.risingMath market p Champion.defaultCfg)
        Champion.risingPrices (List.range 5) = .ok (last, ledger) ∧
      runStrategy (fun market p => Champion.decide Champion.risingMath market p Champion.defaultCfg)
        risingStart (List.range 3) = .ok (last', ledger') ∧
      marks.length = 3 ∧ marks <+: last.navHistory ∧ marks <+: last'.navHistory ∧
      ledger.filter (fun line => line.hour ≤ 2) = ledger'.filter (fun line => line.hour ≤ 2) := by
  have ends : (runStrategy (fun market p =>
      Champion.decide Champion.risingMath market p Champion.defaultCfg) risingStart
      (List.range 3)).toOption.isSome = true := by
    decide +kernel
  rcases Option.isSome_iff_exists.1 ends with ⟨⟨last', ledger'⟩, ended⟩
  have ran' := toOption_eq_some_iff.1 ended
  rcases Champion.risingRun with ⟨last, ledger, ran⟩
  have agree : AgreeUpTo 2 Champion.risingPrices risingStart := .cons ⟨rfl, rfl⟩ .nil
  rcases runStrategy_no_lookahead _
      (Champion.keepsBook_decide Champion.risingMath Champion.defaultCfg) 2 _ _ agree (List.range 3)
      [3, 4] [] (by decide) (by decide) (by decide) last last' ledger ledger' ran ran' with
    ⟨⟨marks, length, begins, begins'⟩, lines, -⟩
  exact ⟨last, last', ledger, ledger', marks, ran, ran', length, begins, begins', lines⟩

end Backtest

end SumplusTrader
