import SumplusTrader.Backtest.Champion
import SumplusTrader.Strategy.Signals

/-!
# The entry gate of the backtest and of the live strategy

The entry rule is coded twice: in the champion, and in `classify` of the signals. Both
want momenta that agree upwards and a volatility below the ceiling, but the champion
only skips volatilities above the ceiling, while `classify` refuses the ceiling as
well. The two gates thus differ on volatilities that are the ceiling, and nowhere else
(`acceptsEntry_iff_riskOn_iff`).

The champion has momenta as fractions, the views have them in percent.
-/

namespace SumplusTrader

theorem signOf_pos_iff {p : ℚ} : 0 < signOf p ↔ 0 < p := by
  unfold signOf
  split_ifs with up down
  · exact iff_of_true one_pos up
  · exact iff_of_false (by norm_num) up
  · exact iff_of_false (lt_irrefl 0) up

/-- The two signs agree upwards when both percentages are positive. -/
theorem signs_agree_upwards_iff {p1 p4 : ℚ} :
    (signOf p1 = signOf p4 ∧ signOf p1 ≠ 0) ∧ 0 < signOf p1 ↔ 0 < p1 ∧ 0 < p4 := by
  constructor
  · rintro ⟨⟨same, -⟩, up⟩
    exact ⟨signOf_pos_iff.1 up, signOf_pos_iff.1 (same ▸ up)⟩
  · rintro ⟨up1, up4⟩
    have sign1 : signOf p1 = 1 := if_pos up1
    have sign4 : signOf p4 = 1 := if_pos up4
    rw [sign1, sign4]
    decide

/-- A token has the regime `riskOn` when both momenta are positive and the volatility, if
it is known, is below the ceiling. -/
theorem classify_riskOn_iff (view : TokenView) (volEnterMaxPct : ℚ) :
    (classify view volEnterMaxPct).state = .riskOn ↔
      ∃ p1 p4, view.pct1h = some p1 ∧ view.pct4h = some p4 ∧ (0 < p1 ∧ 0 < p4) ∧
        ∀ vol, view.vol24hPct = some vol → vol < volEnterMaxPct := by
  unfold classify
  split
  · next p1 p4 found1 found4 =>
    have readings : (∃ p p', view.pct1h = some p ∧ view.pct4h = some p' ∧ (0 < p ∧ 0 < p') ∧
        ∀ vol, view.vol24hPct = some vol → vol < volEnterMaxPct) ↔
          (0 < p1 ∧ 0 < p4) ∧ ∀ vol, view.vol24hPct = some vol → vol < volEnterMaxPct := by
      simp [found1, found4]
    rw [readings, ← signs_agree_upwards_iff]
    dsimp only
    split
    · next vol high =>
      rw [Option.filter_eq_some_iff, decide_eq_true_eq] at high
      exact iff_of_false RegimeState.noConfusion fun below => not_lt.2 high.2 (below.2 vol high.1)
    · next low =>
      rw [Option.filter_eq_none_iff] at low
      have below : ∀ vol, view.vol24hPct = some vol → vol < volEnterMaxPct := by
        intro vol known
        simpa using low vol known
      split_ifs with agree up
      · exact iff_of_true rfl ⟨⟨agree, up⟩, below⟩
      · exact iff_of_false id fun accepted => up accepted.1.2
      · exact iff_of_false id fun accepted => agree accepted.1.1
  · next missing =>
    refine iff_of_false RegimeState.noConfusion ?_
    rintro ⟨p1, p4, found1, found4, -⟩
    exact missing p1 p4 found1 found4

theorem exists_mem_rankEntries_iff {views : List TokenView} {view : TokenView}
    {volEnterMaxPct : ℚ} :
    (∃ regime, (view, regime) ∈ rankEntries views volEnterMaxPct) ↔
      view ∈ views ∧ (classify view volEnterMaxPct).state = .riskOn := by
  constructor
  · rintro ⟨regime, mem⟩
    rcases mem_rankEntries mem with ⟨viewMem, regimeEq, riskOn⟩
    exact ⟨viewMem, regimeEq ▸ riskOn⟩
  · rintro ⟨viewMem, riskOn⟩
    refine ⟨classify view volEnterMaxPct, ?_⟩
    rw [rankEntries, List.mem_insertionSort, List.mem_filter]
    exact ⟨List.mem_map_of_mem viewMem, decide_eq_true riskOn⟩

namespace Backtest

namespace Champion

variable {signal : Signal} {cfg : Cfg} {market : MarketState} {view : TokenView}

theorem acceptsEntry_iff (agreement : signal.requireMomentumAgreement = true) (moms : List ℚ)
    (rvol : ℚ) :
    acceptsEntry signal moms rvol ↔ (∀ m ∈ moms, 0 < m) ∧ rvol ≤ signal.volEnterMaxPct := by
  unfold acceptsEntry
  split_ifs with disagree high
  · exact iff_of_false id fun accepted => disagree.2 accepted.1
  · exact iff_of_false id fun accepted => not_le.2 high accepted.2
  · refine iff_of_true rfl ⟨?_, not_lt.1 high⟩
    by_contra negative
    exact disagree ⟨agreement, negative⟩

/-- An asset is a candidate when its history is long enough and its readings pass the
filter. -/
theorem candidateOf_isSome_iff (math : FloatMath) (cfg : Cfg) (market : MarketState)
    (rung : LadderState) (asset : String) :
    (candidateOf math cfg market rung asset).isSome ↔
      cfg.signal.momentumLookbacksH.foldl max 0 < (market.historyOf asset).length ∧
        acceptsEntry cfg.signal
          (cfg.signal.momentumLookbacksH.map (momentum (market.historyOf asset)))
          (realizedVolPct math (market.historyOf asset) cfg.signal.volWindowH) := by
  dsimp only [candidateOf]
  split_ifs with short accepted
  · exact iff_of_false Bool.false_ne_true fun candidate => by omega
  · exact iff_of_true rfl ⟨by omega, accepted⟩
  · exact iff_of_false Bool.false_ne_true fun candidate => accepted candidate.2

/-- A view with given readings: the momenta over one and four hours as fractions, and the
volatility in percent. -/
def withReadings (view : TokenView) (m1 m4 rvol : ℚ) : TokenView :=
  { view with pct1h := some (100 * m1), pct4h := some (100 * m4), vol24hPct := some rvol }

theorem classify_withReadings_iff (view : TokenView) (m1 m4 rvol volEnterMaxPct : ℚ) :
    (classify (withReadings view m1 m4 rvol) volEnterMaxPct).state = .riskOn ↔
      (0 < m1 ∧ 0 < m4) ∧ rvol < volEnterMaxPct := by
  have scale {m : ℚ} : 0 < 100 * m ↔ 0 < m := mul_pos_iff_of_pos_left (by norm_num)
  rw [classify_riskOn_iff]
  simp [withReadings, scale]

theorem acceptsEntry_pair_iff (agreement : signal.requireMomentumAgreement = true)
    (m1 m4 rvol : ℚ) :
    acceptsEntry signal [m1, m4] rvol ↔ (0 < m1 ∧ 0 < m4) ∧ rvol ≤ signal.volEnterMaxPct := by
  rw [acceptsEntry_iff agreement, List.forall_mem_cons, List.forall_mem_singleton]

/-- Off the ceiling, an asset is a candidate of the champion exactly when the live strategy
ranks a view with its readings among the entries. -/
theorem candidateOf_isSome_iff_ranked (math : FloatMath) (rung : LadderState) (asset : String)
    {views : List TokenView} (agreement : cfg.signal.requireMomentumAgreement = true)
    (lookbacks : cfg.signal.momentumLookbacksH = [1, 4])
    (long : 4 < (market.historyOf asset).length) (viewMem : view ∈ views)
    (readings : withReadings view (momentum (market.historyOf asset) 1)
      (momentum (market.historyOf asset) 4)
      (realizedVolPct math (market.historyOf asset) cfg.signal.volWindowH) = view)
    (apart : realizedVolPct math (market.historyOf asset) cfg.signal.volWindowH ≠
      cfg.signal.volEnterMaxPct) :
    (candidateOf math cfg market rung asset).isSome ↔
      ∃ regime, (view, regime) ∈ rankEntries views cfg.signal.volEnterMaxPct := by
  have enough : cfg.signal.momentumLookbacksH.foldl max 0 < (market.historyOf asset).length := by
    rw [lookbacks]
    exact long
  rw [candidateOf_isSome_iff, and_iff_right enough, lookbacks, exists_mem_rankEntries_iff,
    and_iff_right viewMem, ← readings, classify_withReadings_iff]
  rw [List.map_cons, List.map_cons, List.map_nil, acceptsEntry_pair_iff agreement]
  exact and_congr_right fun _ => ⟨fun atMost => lt_of_le_of_ne atMost apart, le_of_lt⟩

/-- The two gates agree on all readings except two positive momenta with a volatility that
is the ceiling. -/
theorem acceptsEntry_iff_riskOn_iff (signal : Signal) (view : TokenView) (m1 m4 rvol : ℚ) :
    (acceptsEntry { signal with requireMomentumAgreement := true } [m1, m4] rvol ↔
      (classify (withReadings view m1 m4 rvol) signal.volEnterMaxPct).state = .riskOn) ↔
        ¬(0 < m1 ∧ 0 < m4 ∧ rvol = signal.volEnterMaxPct) := by
  rw [acceptsEntry_pair_iff rfl, classify_withReadings_iff]
  dsimp only
  constructor
  · rintro same ⟨up1, up4, ceiling⟩
    exact (same.1 ⟨⟨up1, up4⟩, ceiling.le⟩).2.ne ceiling
  · intro apart
    refine and_congr_right fun up => ⟨fun atMost => ?_, le_of_lt⟩
    exact lt_of_le_of_ne atMost fun ceiling => apart ⟨up.1, up.2, ceiling⟩

/-- At the ceiling of 4% the champion enters and the live strategy does not. -/
theorem ceiling_enters_backtest_only :
    let view : TokenView := ⟨"WBNB", 600, some 1, some 2, some 4, 0, 0, 0, .null⟩
    acceptsEntry defaultCfg.signal [0.01, 0.02] 4 = true ∧
      withReadings view 0.01 0.02 4 = view ∧
        (classify view defaultCfg.signal.volEnterMaxPct).state = .riskOff := by
  refine ⟨by decide +kernel, ?_, by decide +kernel⟩
  norm_num [withReadings]

end Champion

end Backtest

end SumplusTrader
