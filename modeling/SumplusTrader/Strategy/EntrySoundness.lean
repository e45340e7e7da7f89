import SumplusTrader.Strategy.Intents

/-!
# The soundness of entries

This file says what an intent to enter promises: the rung, the token and the amount. The amount
is scaled by the volatility of the token, capped three times and rounded to cents.

Scaling divides by the volatility ceiling, and nothing near the division keeps the ceiling from
being zero. The classification does: a token is ranked only if its volatility is below the
ceiling, so with a volatility that is not negative the ceiling is positive wherever it divides
(`entry_sound`).
-/

namespace SumplusTrader

theorem vol_lt_of_riskOn {view : TokenView} {volEnterMaxPct : ℚ}
    (riskOn : (classify view volEnterMaxPct).state = .riskOn) :
    ∀ vol ∈ view.vol24hPct, vol < volEnterMaxPct := by
  intro vol known
  by_contra high
  rw [not_lt] at high
  have filtered : (view.vol24hPct.filter fun vol => volEnterMaxPct ≤ vol) = some vol := by
    rw [Option.mem_def.1 known]
    exact Option.filter_some_pos (by simpa using high)
  unfold classify at riskOn
  split at riskOn
  · simp [filtered] at riskOn
  · simp at riskOn

namespace Survival

/-- The largest share of the net asset value that one entry may take at a rung. -/
def entryShare (cfg : Config) (halve : Bool) : ℚ :=
  if halve then cfg.risk.maxSingleTradePct / 2 else cfg.risk.maxSingleTradePct

/-- What an intent to enter promises. -/
structure SoundEntry (views : List TokenView) (portfolio : PortfolioState) (cfg : Config)
    (intent : Intent) : Prop where
  rung : ladderRung portfolio.drawdownPct cfg = "none" ∨
    ladderRung portfolio.drawdownPct cfg = "halve_size"
  investable : intent.toToken ∈ universeSet cfg
  unheld : portfolio.positions.get? intent.toToken = none
  riskOn : ∃ view ∈ views, Py.upper view.symbol = intent.toToken ∧
    (classify view cfg.volEnterMaxPct).state = .riskOn
  dollar : 1 ≤ intent.amountUsd
  bounded : intent.amountUsd ≤ min cfg.risk.maxSingleTradeUsd
    (min (entryShare cfg (ladderRung portfolio.drawdownPct cfg = "halve_size") * portfolio.navUsd)
      ((cfg.risk.maxRiskyExposurePct - portfolio.riskyExposurePct) * portfolio.navUsd)) + 0.005

variable {views : List TokenView} {portfolio : PortfolioState} {cfg : Config} {nowTs : ℚ}
  {quote chain : String} {intent : Intent} {navUsd size : ℚ} {volPct : Option ℚ} {halve : Bool}

/-- The share of the net asset value before the rung halves it. -/
def scaledShare (cfg : Config) (volPct : Option ℚ) : ℚ :=
  match volPct with
  | none => cfg.risk.minSingleTradePct
  | some vol => cfg.risk.minSingleTradePct +
      (cfg.risk.maxSingleTradePct - cfg.risk.minSingleTradePct) *
        max 0 (min 1 ((cfg.volEnterMaxPct - vol) / cfg.volEnterMaxPct))

/-- Sizing divides by the ceiling only where the volatility is known. -/
theorem volScaledSize_eq (scaled : volPct = none ∨ cfg.volEnterMaxPct ≠ 0) (navUsd : ℚ)
    (halve : Bool) :
    volScaledSize navUsd volPct cfg halve =
      .ok (min ((if halve then scaledShare cfg volPct / 2 else scaledShare cfg volPct) * navUsd)
        cfg.risk.maxSingleTradeUsd) := by
  unfold volScaledSize scaledShare
  cases volPct with
  | none => rfl
  | some vol =>
      have ceiling : cfg.volEnterMaxPct ≠ 0 := by simpa using scaled
      simp only [if_neg ceiling]
      rfl

theorem scaled_of_volScaledSize (sized : volScaledSize navUsd volPct cfg halve = .ok size) :
    volPct = none ∨ cfg.volEnterMaxPct ≠ 0 := by
  by_contra unscaled
  rw [not_or, not_not] at unscaled
  rcases unscaled with ⟨known, ceiling⟩
  cases volPct with
  | none => exact known rfl
  | some vol => simp [volScaledSize, ceiling, bind, Except.bind] at sized

theorem scaledShare_le (ordered : cfg.risk.minSingleTradePct ≤ cfg.risk.maxSingleTradePct)
    (volPct : Option ℚ) : scaledShare cfg volPct ≤ cfg.risk.maxSingleTradePct := by
  cases volPct with
  | none => exact ordered
  | some vol =>
      have scale : max 0 (min 1 ((cfg.volEnterMaxPct - vol) / cfg.volEnterMaxPct)) ≤ 1 :=
        max_le zero_le_one (min_le_left _ _)
      have growth := mul_le_of_le_one_right (sub_nonneg.2 ordered) scale
      rw [scaledShare]
      linarith

/-- The size is within the cap on a single trade and the share of the net asset value. -/
theorem volScaledSize_le (ordered : cfg.risk.minSingleTradePct ≤ cfg.risk.maxSingleTradePct)
    (nav : 0 ≤ navUsd) (sized : volScaledSize navUsd volPct cfg halve = .ok size) :
    size ≤ min cfg.risk.maxSingleTradeUsd (entryShare cfg halve * navUsd) := by
  rw [volScaledSize_eq (scaled_of_volScaledSize sized), Except.ok.injEq] at sized
  have share := scaledShare_le ordered volPct
  rw [← sized, min_comm]
  apply min_le_min le_rfl
  apply mul_le_mul_of_nonneg_right _ nav
  unfold entryShare
  split
  · exact div_le_div_of_nonneg_right share zero_le_two
  · exact share

/-- Ranked tokens can be sized: a known volatility lies between zero and the ceiling. -/
theorem scaled_of_ranked (vols : ∀ view ∈ views, ∀ vol ∈ view.vol24hPct, 0 ≤ vol)
    {entry : TokenView × Regime}
    (ranked : entry ∈ rankEntries (entryViews views cfg) cfg.volEnterMaxPct) :
    entry.1.vol24hPct = none ∨ cfg.volEnterMaxPct ≠ 0 := by
  rcases mem_rankEntries ranked with ⟨mem, regime, riskOn⟩
  rw [regime] at riskOn
  cases known : entry.1.vol24hPct with
  | none => exact .inl rfl
  | some vol =>
      have nonneg := vols entry.1 (mem_entryViews mem).1 vol known
      have below := vol_lt_of_riskOn riskOn vol known
      exact .inr (nonneg.trans_lt below).ne'

theorem firstEntry_total {ranked : List (TokenView × Regime)}
    (scaled : ∀ entry ∈ ranked, entry.1.vol24hPct = none ∨ cfg.volEnterMaxPct ≠ 0) :
    ∃ entered, firstEntry cfg portfolio quote chain ranked = .ok entered := by
  induction ranked with
  | nil => exact ⟨none, rfl⟩
  | cons entry ranked ih =>
      rcases entry with ⟨view, regime⟩
      rw [List.forall_mem_cons] at scaled
      rcases ih scaled.2 with ⟨entered, later⟩
      have sizes : ∃ size, volScaledSize portfolio.navUsd view.vol24hPct cfg
          (ladderRung portfolio.drawdownPct cfg = "halve_size") = .ok size :=
        ⟨_, volScaledSize_eq scaled.1 _ _⟩
      rcases sizes with ⟨size, sized⟩
      simp only [firstEntry, sized, later, bind, Except.bind, pure, Except.pure]
      split_ifs
      · exact ⟨_, rfl⟩
      · exact ⟨_, rfl⟩
      · exact ⟨_, rfl⟩

/-- The strategy never divides by zero. -/
theorem decide_total (vols : ∀ view ∈ views, ∀ vol ∈ view.vol24hPct, 0 ≤ vol)
    (portfolio : PortfolioState) (cfg : Config) (nowTs : ℚ) (quote chain : String) :
    ∃ intent, decide views portfolio cfg nowTs quote chain = .ok intent := by
  have ranked : ∀ entry ∈ rankEntries (entryViews views cfg) cfg.volEnterMaxPct,
      entry.1.vol24hPct = none ∨ cfg.volEnterMaxPct ≠ 0 :=
    fun entry mem => scaled_of_ranked vols mem
  rcases firstEntry_total ranked with ⟨entered, scanned⟩
  unfold decide
  split
  · exact ⟨_, rfl⟩
  · split
    · rw [scanned]
      exact ⟨_, rfl⟩
    · exact ⟨_, rfl⟩

/-- **Entries are sound, and no call divides by zero.** -/
theorem entry_sound (cfg : Config)
    (ordered : cfg.risk.minSingleTradePct ≤ cfg.risk.maxSingleTradePct) (views : List TokenView)
    (vols : ∀ view ∈ views, ∀ vol ∈ view.vol24hPct, 0 ≤ vol) (portfolio : PortfolioState)
    (nav : 0 ≤ portfolio.navUsd) (nowTs : ℚ) (quote chain : String) :
    ∃ intent, decide views portfolio cfg nowTs quote chain = .ok intent ∧
      (intent.action = .enter → SoundEntry views portfolio cfg intent) := by
  rcases decide_total vols portfolio cfg nowTs quote chain with ⟨intent, decided⟩
  refine ⟨intent, decided, ?_⟩
  intro enters
  cases decided_of_decide decided with
  | exit => cases enters
  | rebalanceUp => cases enters
  | rebalanceDown => cases enters
  | hold => cases enters
  | enter _ permitted view regime ranked unheld size sized large =>
      rcases mem_rankEntries ranked with ⟨mem, regime, riskOn⟩
      rw [regime] at riskOn
      have within := volScaledSize_le ordered nav sized
      refine ⟨permitted.1, (mem_entryViews mem).2, unheld,
        ⟨view, (mem_entryViews mem).1, rfl, riskOn⟩, ?_, ?_⟩
      · have one : Py.roundTo 2 1 = 1 := by decide +kernel
        rw [← one]
        exact Py.roundTo_mono 2 large
      · have cents := Py.roundTo_le 2 (min size (room cfg portfolio * portfolio.navUsd))
        have half : (0.005 : ℚ) = 1 / (2 * 10 ^ 2) := by norm_num
        rw [half, ← min_assoc]
        exact cents.trans (add_le_add (min_le_min within le_rfl) le_rfl)

/-- A book of a hundred in cash. -/
def cashPortfolio : PortfolioState where
  navUsd := 100
  stableUsd := 100
  positions := Dict.empty
  drawdownPct := 0
  riskyExposurePct := 0
  tradesThisWeek := 0
  secondsSinceLastTrade := 1000000000

/-- A view in an uptrend, with a volatility of one percent. -/
def risingViews : List TokenView := [⟨"INJ", 20, some 1, some 2, some 1, 0, 0, 0, .obj []⟩]

theorem entry_sound_risingViews :
    ∃ intent, decide risingViews cashPortfolio injectiveConfig 0 "USDT" "injective" = .ok intent ∧
      (intent.action = .enter →
        SoundEntry risingViews cashPortfolio injectiveConfig intent) := by
  refine entry_sound injectiveConfig (by decide +kernel) risingViews ?_ cashPortfolio
    (by decide +kernel) 0 "USDT" "injective"
  intro view mem vol known
  simp only [risingViews, List.mem_singleton] at mem
  subst mem
  rw [← Option.some.inj known]
  norm_num

end Survival

end SumplusTrader
